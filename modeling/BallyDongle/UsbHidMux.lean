import BallyDongle.Lib.Run
import Mathlib.Data.List.Basic

/-!
# The echo of HID reports

`UsbHidMux.cpp`: a SET_REPORT callback copies what the host says is valid of its report, and a
tick sends the 64 octets back. What is sent is the last report over what earlier ones left
behind it (`Session.recorded`), and the length that is copied is the host's own
(`echo_run_iff`).
-/

namespace BallyDongle.UsbHidMux

def kReportSize : Nat := 64
def kPayloadSize : UInt8 := 63

abbrev Report := Vector UInt8 kReportSize

/-- The globals. -/
structure Mux where
  pendingOut : Report := Vector.replicate kReportSize 0
  hasPendingOut : Bool := false
  started : Bool := false

/-- What a callback is given: a pointer, and the size of what it points to. The octets at `size`
and beyond belong to others. -/
structure Transfer where
  buffer : Option (Nat → UInt8)
  size : UInt16

def begin (s : Mux) : Mux := { s with started := true }

/-- The report that is sent, if one is; whether the endpoint is free and takes it is not up to
this code. -/
def tick (s : Mux) (ready accepted : Bool) : Mux × Option Report :=
  if !s.started then (s, none)
  else if !s.hasPendingOut then (s, none)
  else if !ready then (s, none)
  else if accepted then ({ s with hasPendingOut := false }, some s.pendingOut)
  else (s, none)

def validLength (buffer : Nat → UInt8) : UInt8 :=
  if buffer 0 > kPayloadSize then kPayloadSize else buffer 0

/-- `memcpy(out + 1, buffer + 1, n)` -/
def copyPayload (out : Report) (buffer : Nat → UInt8) (n : Nat) : Report :=
  Vector.ofFn fun j => if 1 ≤ j.val ∧ j.val ≤ n then buffer j else out[j]

/-- The indices of the buffer that are read, with the state after it. -/
def setReportCb (s : Mux) (transfer : Transfer) : Mux × List Nat :=
  match transfer.buffer with
  | none => (s, [])
  | some buffer =>
    if transfer.size = 0 then (s, [])
    else if validLength buffer = 0 then (s, [0])
    else
      ({ s with
          pendingOut := copyPayload (s.pendingOut.set 0 (validLength buffer)) buffer
            (validLength buffer).toNat
          hasPendingOut := true },
        0 :: List.range' 1 (validLength buffer).toNat)

/-! ## Sessions -/

inductive Event
  | begin
  | setReport (transfer : Transfer)
  | tick (ready accepted : Bool)

/-- A report that the host has sent and that was taken: the octets from the pointer on, and how
many of them are its own. -/
structure HostReport where
  buffer : Nat → UInt8
  size : UInt16

/-- The globals, and the reports taken so far, the last one in front. -/
structure Session where
  mux : Mux := {}
  reports : List HostReport := []

/-- The report of a transfer that is taken. -/
def Transfer.taken (transfer : Transfer) : Option HostReport :=
  transfer.buffer.bind fun buffer =>
    if transfer.size = 0 ∨ validLength buffer = 0 then none else some ⟨buffer, transfer.size⟩

def Session.step (s : Session) : Event → Session
  | .begin => { s with mux := begin s.mux }
  | .setReport transfer =>
    { mux := (setReportCb s.mux transfer).1, reports := transfer.taken.toList ++ s.reports }
  | .tick ready accepted => { s with mux := (tick s.mux ready accepted).1 }

/-- The octets that the report says are valid are its own. -/
def HostReport.Fits (r : HostReport) : Prop := (validLength r.buffer).toNat < r.size.toNat

/-- The length octet and the payload of a report, followed by zeros. -/
def HostReport.padded (r : HostReport) : Report :=
  Vector.ofFn fun j =>
    if j.val = 0 then validLength r.buffer
    else if j.val ≤ (validLength r.buffer).toNat then r.buffer j else 0

/-- No callback reads what is not the transfer's, and what is sent is one report of the host
and zeros. -/
def Session.Echoes (s : Session) : Event → Prop
  | .begin => True
  | .setReport transfer => ∀ i ∈ (setReportCb s.mux transfer).2, i < transfer.size.toNat
  | .tick ready accepted => ∀ sent ∈ (tick s.mux ready accepted).2,
      ∃ r ∈ s.reports, r.Fits ∧ sent = r.padded

/-- What the reports have left at a place behind the length octet: the octet of the last one
that reached it. -/
def left : List HostReport → Nat → UInt8
  | [], _ => 0
  | r :: reports, j => if j ≤ (validLength r.buffer).toNat then r.buffer j else left reports j

/-- Behind the payload of the last report, the earlier ones have left nothing but zeros. -/
def NothingLeft : List HostReport → Prop
  | [] => True
  | r :: reports => ∀ j < kReportSize, (validLength r.buffer).toNat < j → left reports j = 0

/-- The tick sends what is pending. -/
def Mux.Sends (s : Mux) (ready accepted : Bool) : Prop :=
  s.started = true ∧ s.hasPendingOut = true ∧ ready = true ∧ accepted = true

/-- A report that is taken has its length prefix below the size of its transfer; and when a
report is sent, no earlier one has left anything behind it. -/
def Session.Covers (s : Session) : Event → Prop
  | .begin => True
  | .setReport transfer => ∀ r ∈ transfer.taken, r.Fits
  | .tick ready accepted => s.mux.Sends ready accepted → NothingLeft s.reports

/-! ## What is pending -/

/-- The buffer is the length of the last report in front of what the reports have left. -/
structure Session.Recorded (s : Session) : Prop where
  front : s.mux.pendingOut[0] = s.reports.head?.elim 0 fun r => validLength r.buffer
  behind : ∀ j : Fin kReportSize, j.val ≠ 0 → s.mux.pendingOut[j] = left s.reports j
  pending : s.mux.hasPendingOut = true → s.reports ≠ []

theorem tick_of_sends {s : Mux} {ready accepted : Bool} (h : s.Sends ready accepted) :
    tick s ready accepted = ({ s with hasPendingOut := false }, some s.pendingOut) := by
  obtain ⟨hstarted, hpending, rfl, rfl⟩ := h
  rw [tick, hstarted, hpending]
  rfl

theorem tick_of_not_sends {s : Mux} {ready accepted : Bool} (h : ¬s.Sends ready accepted) :
    tick s ready accepted = (s, none) := by
  rw [Mux.Sends] at h
  rw [tick]
  cases hstarted : s.started <;> cases hpending : s.hasPendingOut <;> cases ready <;>
    cases accepted <;> simp_all

theorem start_recorded : Session.Recorded {} where
  front := rfl
  behind j _ := Vector.getElem_replicate j.isLt
  pending := nofun

/-- A callback either takes no report and reads at most the length octet, or copies what the
length octet says. -/
theorem setReportCb_cases (s : Mux) (transfer : Transfer) :
    (transfer.taken = none ∧ (setReportCb s transfer).1 = s ∧
        ∀ i ∈ (setReportCb s transfer).2, i < transfer.size.toNat) ∨
      ∃ buffer, transfer.taken = some ⟨buffer, transfer.size⟩ ∧ validLength buffer ≠ 0 ∧
        setReportCb s transfer =
          ({ s with
              pendingOut := copyPayload (s.pendingOut.set 0 (validLength buffer)) buffer
                (validLength buffer).toNat
              hasPendingOut := true },
            0 :: List.range' 1 (validLength buffer).toNat) := by
  rw [Transfer.taken, setReportCb]
  cases transfer.buffer with
  | none => exact .inl ⟨rfl, rfl, nofun⟩
  | some buffer =>
    dsimp only
    rw [Option.bind_some]
    by_cases hsize : transfer.size = 0
    · rw [if_pos (.inl hsize), if_pos hsize]
      exact .inl ⟨rfl, rfl, nofun⟩
    · rw [if_neg hsize]
      by_cases hlength : validLength buffer = 0
      · rw [if_pos (.inr hlength), if_pos hlength]
        refine .inl ⟨rfl, rfl, fun i hi => ?_⟩
        rw [List.mem_singleton.1 hi]
        exact Nat.pos_of_ne_zero fun h => hsize (UInt16.toNat_inj.1 h)
      · rw [if_neg (by simp [hsize, hlength]), if_neg hlength]
        exact .inr ⟨buffer, rfl, hlength, rfl⟩

theorem copyPayload_front (out : Report) (buffer : Nat → UInt8) (n : Nat) :
    (copyPayload out buffer n)[0] = out[0] := by
  rw [copyPayload, Vector.getElem_ofFn, if_neg fun h => absurd h.1 (by decide)]
  rfl

theorem copyPayload_behind (out : Report) (buffer : Nat → UInt8) (n : Nat) {j : Fin kReportSize}
    (hj : j.val ≠ 0) : (copyPayload out buffer n)[j] = if j.val ≤ n then buffer j else out[j] := by
  have hone : 1 ≤ j.val := Nat.one_le_iff_ne_zero.2 hj
  rw [copyPayload, Fin.getElem_fin, Vector.getElem_ofFn]
  simp only [hone, true_and]

theorem Session.Recorded.step {s : Session} (h : s.Recorded) (e : Event) : (s.step e).Recorded := by
  cases e with
  | begin => exact ⟨h.front, h.behind, h.pending⟩
  | tick ready accepted =>
    by_cases hsends : s.mux.Sends ready accepted
    · rw [Session.step, tick_of_sends hsends]
      exact ⟨h.front, h.behind, nofun⟩
    · rw [Session.step, tick_of_not_sends hsends]
      exact h
  | setReport transfer =>
    rw [Session.step]
    rcases setReportCb_cases s.mux transfer with ⟨htaken, hstate, -⟩ | ⟨buffer, htaken, -, hstate⟩
    · rw [htaken, hstate]
      exact h
    · rw [htaken, hstate]
      refine ⟨?_, fun j hj => ?_, nofun⟩
      · exact (copyPayload_front _ _ _).trans (Vector.getElem_set_self _)
      · have hset : (s.mux.pendingOut.set 0 (validLength buffer))[j] = s.mux.pendingOut[j] :=
          Vector.getElem_set_ne _ _ (Ne.symm hj)
        have hcopied := copyPayload_behind (s.mux.pendingOut.set 0 (validLength buffer)) buffer
          (validLength buffer).toNat hj
        rw [hset, h.behind j hj] at hcopied
        exact hcopied

theorem HostReport.padded_front (r : HostReport) : r.padded[0] = validLength r.buffer :=
  Vector.getElem_ofFn _

theorem HostReport.padded_behind (r : HostReport) {j : Fin kReportSize} (hj : j.val ≠ 0) :
    r.padded[j] = if j.val ≤ (validLength r.buffer).toNat then r.buffer j else 0 := by
  rw [padded, Fin.getElem_fin, Vector.getElem_ofFn, if_neg hj]

/-- What is pending is a report and zeros just when nothing was left behind the last one. -/
theorem Session.Recorded.sent_iff {s : Session} (h : s.Recorded)
    (hfits : ∀ r ∈ s.reports, r.Fits) (hpending : s.mux.hasPendingOut = true) :
    (∃ r ∈ s.reports, r.Fits ∧ s.mux.pendingOut = r.padded) ↔ NothingLeft s.reports := by
  obtain ⟨last, reports, hreports⟩ := List.exists_cons_of_ne_nil (h.pending hpending)
  have hfront : s.mux.pendingOut[0] = validLength last.buffer := by
    rw [h.front, hreports]
    rfl
  have hbehind : ∀ j : Fin kReportSize, j.val ≠ 0 → s.mux.pendingOut[j] =
      if j.val ≤ (validLength last.buffer).toNat then last.buffer j else left reports j := by
    intro j hj
    rw [h.behind j hj, hreports, left]
  rw [hreports, NothingLeft]
  constructor
  · rintro ⟨r, -, -, hpadded⟩ j hj hlast
    -- the length octet says how long the payload of `r` is
    have hlength : validLength r.buffer = validLength last.buffer := by
      rw [← r.padded_front, ← hpadded, hfront]
    have hnonzero : j ≠ 0 := Nat.ne_of_gt (Nat.zero_lt_of_lt hlast)
    have hleft := hbehind ⟨j, hj⟩ hnonzero
    rw [if_neg (Nat.not_le.2 hlast), hpadded, r.padded_behind hnonzero, hlength,
      if_neg (Nat.not_le.2 hlast)] at hleft
    exact hleft.symm
  · intro hnothing
    refine ⟨last, List.mem_cons_self, hfits last (by rw [hreports]; exact List.mem_cons_self), ?_⟩
    apply Vector.ext
    intro j hj
    by_cases hzero : j = 0
    · subst hzero
      rw [hfront, last.padded_front]
    · have hpayload := hbehind ⟨j, hj⟩ hzero
      refine hpayload.trans (Eq.trans ?_ (last.padded_behind (j := ⟨j, hj⟩) hzero).symm)
      split
      · rfl
      · rename_i hlast
        exact hnothing j hj (Nat.not_le.1 hlast)

/-! ## What is sent -/

theorem echoes_iff {s : Session} (h : s.Recorded) (hfits : ∀ r ∈ s.reports, r.Fits) (e : Event) :
    s.Echoes e ↔ s.Covers e := by
  cases e with
  | begin => exact Iff.rfl
  | setReport transfer =>
    rw [Session.Echoes, Session.Covers]
    rcases setReportCb_cases s.mux transfer with ⟨htaken, -, hreads⟩ | ⟨buffer, htaken, hlength, hstate⟩
    · rw [htaken]
      exact iff_of_true hreads nofun
    · have hpos : 0 < (validLength buffer).toNat :=
        Nat.pos_of_ne_zero fun hzero => hlength (UInt8.toNat_inj.1 hzero)
      rw [htaken, hstate]
      dsimp only
      constructor
      · rintro hreads r hr
        cases hr
        have hlast := List.mem_range'_1.2 ⟨hpos, Nat.lt_add_of_pos_left Nat.one_pos⟩
        exact hreads _ (List.mem_cons_of_mem _ hlast)
      · intro hcovers i hi
        have hlt : (validLength buffer).toNat < transfer.size.toNat := hcovers _ rfl
        rcases List.mem_cons.1 hi with rfl | hi
        · omega
        · have hrange := List.mem_range'_1.1 hi
          omega
  | tick ready accepted =>
    rw [Session.Echoes, Session.Covers]
    by_cases hsends : s.mux.Sends ready accepted
    · rw [tick_of_sends hsends]
      simp only [Option.mem_def, Option.some.injEq, forall_eq', hsends, forall_true_left]
      exact h.sent_iff hfits hsends.2.1
    · rw [tick_of_not_sends hsends]
      exact iff_of_true nofun fun h => absurd h hsends

theorem fits_step {s : Session} {e : Event} (hfits : ∀ r ∈ s.reports, r.Fits) (h : s.Covers e) :
    ∀ r ∈ (s.step e).reports, r.Fits := by
  cases e with
  | begin => exact hfits
  | tick ready accepted => exact hfits
  | setReport transfer =>
    intro r hr
    rcases List.mem_append.1 hr with hr | hr
    · exact h r (Option.mem_toList.1 hr)
    · exact hfits r hr

/-- In a session every callback keeps to its transfer and every report that is sent is one of
the host's and zeros, just when each callback's length fits its transfer and no report is sent
over what an earlier one has left behind it. -/
theorem echo_run_iff (events : List Event) :
    Run.AllSteps Session.step Session.Echoes {} events ↔
      Run.AllSteps Session.step Session.Covers {} events := by
  have hstart : Session.Recorded {} ∧ ∀ r ∈ ({} : Session).reports, r.Fits :=
    ⟨start_recorded, nofun⟩
  constructor
  · exact Run.AllSteps.of_invariant
      (I := fun s => s.Recorded ∧ ∀ r ∈ s.reports, r.Fits)
      (fun s e hs he => ⟨hs.1.step e, fits_step hs.2 ((echoes_iff hs.1 hs.2 e).1 he)⟩)
      (fun s e hs he => (echoes_iff hs.1 hs.2 e).1 he) hstart
  · exact Run.AllSteps.of_invariant
      (I := fun s => s.Recorded ∧ ∀ r ∈ s.reports, r.Fits)
      (fun s e hs he => ⟨hs.1.step e, fits_step hs.2 he⟩)
      (fun s e hs he => (echoes_iff hs.1 hs.2 e).2 he) hstart

def threeOctets : HostReport := ⟨fun i => [3, 0x61, 0x62, 0x63].getD i 0, 4⟩
def oneOctet : HostReport := ⟨fun i => [1, 0x78].getD i 0, 2⟩

def HostReport.transfer (r : HostReport) : Transfer := ⟨some r.buffer, r.size⟩

/-- The shorter report is sent with two octets of the one before. -/
theorem earlier_octets_sent :
    ¬∀ events, Run.AllSteps Session.step Session.Echoes {} events := by
  intro h
  obtain ⟨-, -, -, -, hlast, -⟩ := h [.begin, .setReport threeOctets.transfer, .tick true true,
    .setReport oneOctet.transfer, .tick true true]
  obtain ⟨r, hr, -, hpadded⟩ := hlast _ rfl
  have hreports : r ∈ [oneOctet, threeOctets] := hr
  have hfront := congrArg (fun out : Report => out[0]) hpadded
  have hbehind := congrArg (fun out : Report => out[2]) hpadded
  rcases List.mem_cons.1 hreports with rfl | hthree
  · exact absurd hbehind (by decide +kernel)
  · rw [List.mem_singleton.1 hthree] at hfront
    exact absurd hfront (by decide +kernel)

end BallyDongle.UsbHidMux
