import BallyDongle.DonglePublisher.Publication

/-!
# The publication schedule

When a topic is due, said from what has happened so far alone: the requests of the
desktop and the calls of the earlier ticks. Every tick of every run keeps to it
(`run_scheduled`).
-/

namespace BallyDongle.DonglePublisher

open Btp

/-- What happens to the publisher; a tick with the calls it made. -/
inductive Event
  | subscribed (topicId : UInt16) (rateMillihz : UInt32)
  | unsubscribed (topicId : UInt16)
  | ticked (nowMs : UInt32) (snapshot : Snapshot) (calls : List Call)

inductive Recorded.Op
  | onLocalSubscribe (topicId : UInt16) (rateMillihz : UInt32)
  | onLocalUnsubscribe (topicId : UInt16)
  | tick (nowMs : UInt32) (snapshot : Snapshot) (emit : EmitFn)

/-- The hub, and what has happened so far, the latest first. -/
structure Recorded where
  hub : Hub := {}
  past : List Event := []

def Recorded.step (selfSourceId : UInt32) (s : Recorded) : Op → Recorded
  | .onLocalSubscribe topicId rateMillihz =>
    { hub := { s.hub with publisher := onLocalSubscribe s.hub.publisher topicId rateMillihz }
      past := .subscribed topicId rateMillihz :: s.past }
  | .onLocalUnsubscribe topicId =>
    { hub := { s.hub with publisher := onLocalUnsubscribe s.hub.publisher topicId }
      past := .unsubscribed topicId :: s.past }
  | .tick nowMs snapshot emit =>
    let hub := ({ s.hub with calls := [] } : Hub)
    let hub := (hub.tick selfSourceId nowMs (some snapshot) (some emit)).1
    { hub, past := .ticked nowMs snapshot hub.calls :: s.past }

/-! ## The schedule -/

def Call.attempts (topicId : UInt16) : Call → Bool
  | .emit t _ _ => t == topicId
  | _ => false

/-- An attempt to publish the topic, or an accounting for it. -/
def Call.about (topicId : UInt16) : Call → Bool
  | .emit t _ _ => t == topicId
  | .forwarded t _ => t == topicId
  | .dropped t => t == topicId
  | .provider => false

def isSubscribed (topicId : UInt16) : List Event → Bool
  | [] => false
  | .subscribed t _ :: past => t == topicId || isSubscribed topicId past
  | .unsubscribed t :: past => t != topicId && isSubscribed topicId past
  | .ticked .. :: past => isSubscribed topicId past

/-- The period of the latest subscription to the topic. -/
def grantedPeriod (topicId : UInt16) : List Event → UInt32
  | [] => 0
  | .subscribed t rateMillihz :: past =>
    if t = topicId then periodFor topicId rateMillihz else grantedPeriod topicId past
  | _ :: past => grantedPeriod topicId past

/-- The time and the snapshot of the last attempt to publish the topic since it last
became subscribed. -/
def lastAttempt (topicId : UInt16) : List Event → Option (UInt32 × Snapshot)
  | [] => none
  | .subscribed t _ :: past =>
    if t = topicId ∧ isSubscribed topicId past = false then none else lastAttempt topicId past
  | .unsubscribed _ :: past => lastAttempt topicId past
  | .ticked nowMs snapshot calls :: past =>
    if calls.any (Call.attempts topicId) then some (nowMs, snapshot)
    else lastAttempt topicId past

def Snapshot.fingerprint (snapshot : Snapshot) : UInt32 :=
  peersFingerprint (snapshot.peers.take kMaxPeers)

def ownTopics : List UInt16 := kTopics.map Prod.fst

/-- The topic is to be published at this time, after what has happened. -/
def Due (past : List Event) (nowMs : UInt32) (snapshot : Snapshot) (topicId : UInt16) : Prop :=
  topicId ∈ ownTopics ∧ isSubscribed topicId past = true ∧
    ∀ lastMs last, lastAttempt topicId past = some (lastMs, last) →
      grantedPeriod topicId past ≤ nowMs - lastMs ∧
        (topicId = kPeersTopicId →
          snapshot.fingerprint ≠ last.fingerprint ∨ kPeersKeepAliveMs ≤ nowMs - lastMs)

def sampleOf (snapshot : Snapshot) (topicId : UInt16) : Bytes :=
  if topicId = kLinkTopicId then packLink snapshot.link
  else if topicId = kUsbTopicId then packUsb snapshot.usb
  else packPeers snapshot.peers

/-- The calls of a tick are those that what has happened asks for. -/
structure Scheduled (past : List Event) (nowMs : UInt32) (snapshot : Snapshot) (emit : EmitFn)
    (calls : List Call) : Prop where
  silent : (∀ topicId ∈ ownTopics, isSubscribed topicId past = false) → calls = []
  asks : (∃ topicId ∈ ownTopics, isSubscribed topicId past = true) → calls.count .provider = 1
  attempts : ∀ topicId, Due past nowMs snapshot topicId →
    calls.filter (Call.about topicId) = attemptCalls emit topicId (sampleOf snapshot topicId)
  rests : ∀ topicId, ¬Due past nowMs snapshot topicId → calls.filter (Call.about topicId) = []

/-- A tick keeps to the schedule, and its calls account for what it does to the registry. -/
def KeepsSchedule (selfSourceId : UInt32) (s : Recorded) : Recorded.Op → Prop
  | .onLocalSubscribe .. | .onLocalUnsubscribe .. => True
  | .tick nowMs snapshot emit =>
    let s' := s.step selfSourceId (.tick nowMs snapshot emit)
    Scheduled s.past nowMs snapshot emit s'.hub.calls ∧
      s'.hub.registry = s'.hub.calls.foldl (account selfSourceId) s.hub.registry

/-! ## The state remembers what has happened -/

/-- The state of a topic remembers what the schedule asks of the past. -/
structure TopicState.Tracks (state : TopicState) (topicId : UInt16) (past : List Event) : Prop where
  subscribed : state.subscribed = isSubscribed topicId past
  periodMs : state.subscribed = true → state.periodMs = grantedPeriod topicId past
  unsubscribed : state.subscribed = false → state.published = false
  unpublished : state.subscribed = true → state.published = false → lastAttempt topicId past = none
  published : state.published = true →
    ∃ last, lastAttempt topicId past = some (state.lastPublishMs, last)

structure Tracks (g : Publisher) (past : List Event) : Prop where
  topic : ∀ topicId state, stateFor g topicId = some state → state.Tracks topicId past
  fingerprint : g.peers.published = true → g.peersFingerprintValid = true ∧
    ∀ lastMs last, lastAttempt kPeersTopicId past = some (lastMs, last) →
      g.peersFingerprint = last.fingerprint

/-- `duePeriodic` and `duePeers`, by topic. -/
def dueFor (g : Publisher) (nowMs : UInt32) (snapshot : Snapshot) (topicId : UInt16) : Bool :=
  if topicId = kLinkTopicId then duePeriodic g.link nowMs
  else if topicId = kUsbTopicId then duePeriodic g.usb nowMs
  else if topicId = kPeersTopicId then duePeers g nowMs snapshot.fingerprint
  else false

variable {selfSourceId : UInt32} {g : Publisher} {past : List Event} {nowMs : UInt32}
  {snapshot : Snapshot} {emit : EmitFn} {calls : List Call} {topicId : UInt16} {state : TopicState}

theorem duePeriodic_iff (h : state.Tracks topicId past) :
    duePeriodic state nowMs = true ↔ isSubscribed topicId past = true ∧
      ∀ lastMs last, lastAttempt topicId past = some (lastMs, last) →
        grantedPeriod topicId past ≤ nowMs - lastMs := by
  rw [duePeriodic, Bool.and_eq_true, h.subscribed]
  refine and_congr_right fun hs => ?_
  rw [← h.subscribed] at hs
  cases hp : state.published with
  | false => simp [h.unpublished hs hp]
  | true =>
    obtain ⟨last, hlast⟩ := h.published hp
    simp [hlast, h.periodMs hs]

theorem mem_ownTopics :
    topicId ∈ ownTopics ↔ topicId = kLinkTopicId ∨ topicId = kUsbTopicId ∨ topicId = kPeersTopicId := by
  simp [ownTopics, kTopics]

theorem duePeers_iff (h : Tracks g past) :
    duePeers g nowMs snapshot.fingerprint = true ↔ isSubscribed kPeersTopicId past = true ∧
      ∀ lastMs last, lastAttempt kPeersTopicId past = some (lastMs, last) →
        grantedPeriod kPeersTopicId past ≤ nowMs - lastMs ∧
          (snapshot.fingerprint ≠ last.fingerprint ∨ kPeersKeepAliveMs ≤ nowMs - lastMs) := by
  have htopic := h.topic kPeersTopicId g.peers rfl
  rw [duePeers, Bool.and_eq_true, htopic.subscribed]
  refine and_congr_right fun hs => ?_
  rw [← htopic.subscribed] at hs
  cases hp : g.peers.published with
  | false => simp [htopic.unpublished hs hp]
  | true =>
    obtain ⟨last, hlast⟩ := htopic.published hp
    obtain ⟨hvalid, hfp⟩ := h.fingerprint hp
    simp [hlast, htopic.periodMs hs, hvalid, hfp _ _ hlast]

theorem dueFor_iff (h : Tracks g past) :
    dueFor g nowMs snapshot topicId = true ↔ Due past nowMs snapshot topicId := by
  have hne : kLinkTopicId ≠ kPeersTopicId ∧ kUsbTopicId ≠ kPeersTopicId := by decide
  rw [dueFor, Due, mem_ownTopics]
  split
  · rename_i hl
    subst hl
    rw [duePeriodic_iff (h.topic kLinkTopicId g.link rfl)]
    simp [hne.1]
  split
  · rename_i hu
    subst hu
    rw [duePeriodic_iff (h.topic kUsbTopicId g.usb rfl)]
    simp [hne.2]
  split
  · rename_i hp
    subst hp
    rw [duePeers_iff h]
    simp
  · rename_i hl hu hp
    simp [hl, hu, hp]

/-! ## What a tick calls about a topic -/

theorem filter_attemptCalls (t : UInt16) (payload : Bytes) :
    (attemptCalls emit t payload).filter (Call.about topicId) =
      if t = topicId then attemptCalls emit t payload else [] := by
  rw [attemptCalls]
  by_cases h : t = topicId
  · split <;> simp [Call.about, h]
  · split <;> simp [Call.about, h]

theorem filter_callsIf (due : Bool) (t : UInt16) (payload : Bytes) :
    (Hub.callsIf due emit t payload).filter (Call.about topicId) =
      if due = true ∧ t = topicId then attemptCalls emit t payload else [] := by
  cases due with
  | true => simpa [Hub.callsIf] using filter_attemptCalls t payload
  | false => simp [Hub.callsIf]

theorem dueFor_subscribed (h : dueFor g nowMs snapshot topicId = true) : hasSubscribers g = true := by
  rw [dueFor] at h
  rw [hasSubscribers]
  split at h
  · simp [duePeriodic] at h
    simp [h.1]
  split at h
  · simp [duePeriodic] at h
    simp [h.1]
  split at h
  · simp [duePeers] at h
    simp [h.1]
  · cases h

theorem not_dueFor (h : hasSubscribers g = false) : dueFor g nowMs snapshot topicId = false := by
  cases hdue : dueFor g nowMs snapshot topicId with
  | false => rfl
  | true => rw [dueFor_subscribed hdue] at h; cases h

theorem filter_tickCalls :
    (tickCalls g nowMs snapshot emit).filter (Call.about topicId) =
      if dueFor g nowMs snapshot topicId then attemptCalls emit topicId (sampleOf snapshot topicId)
      else [] := by
  cases hsub : hasSubscribers g with
  | false =>
    rw [not_dueFor hsub, tickCalls, hsub]
    rfl
  | true =>
    rw [Hub.tickCalls_eq hsub rfl]
    simp only [List.filter_cons, Call.about, Bool.false_eq_true, if_false, List.filter_append,
      filter_callsIf]
    have husb : kUsbTopicId ≠ kLinkTopicId := by decide
    have hpeers : kPeersTopicId ≠ kLinkTopicId ∧ kPeersTopicId ≠ kUsbTopicId := by decide
    rw [dueFor, sampleOf]
    by_cases hl : topicId = kLinkTopicId
    · subst hl
      simp [husb, hpeers]
    by_cases hu : topicId = kUsbTopicId
    · subst hu
      simp [husb, husb.symm, hpeers]
    by_cases hp : topicId = kPeersTopicId
    · subst hp
      simp [hpeers, hpeers.1.symm, hpeers.2.symm]
      rfl
    · simp [hl, hu, hp, Ne.symm hl, Ne.symm hu, Ne.symm hp]

theorem any_attempts (calls : List Call) :
    calls.any (Call.attempts topicId) =
      (calls.filter (Call.about topicId)).any (Call.attempts topicId) := by
  rw [List.any_filter]
  congr 1
  funext call
  cases call <;> simp [Call.attempts, Call.about]

theorem attempted_eq :
    (tickCalls g nowMs snapshot emit).any (Call.attempts topicId) =
      dueFor g nowMs snapshot topicId := by
  rw [any_attempts, filter_tickCalls]
  cases dueFor g nowMs snapshot topicId with
  | true =>
    rw [if_pos rfl, attemptCalls]
    split <;> simp [Call.attempts]
  | false => rfl

/-! ## What a tick does to the state of a topic -/

theorem stateFor_tick :
    stateFor (tick g nowMs snapshot).1 topicId = (stateFor g topicId).map fun state =>
      if dueFor g nowMs snapshot topicId then state.stamp nowMs else state := by
  cases hsub : hasSubscribers g with
  | false =>
    rw [tick, hsub, not_dueFor hsub]
    simp
  | true =>
    have hfp : peersFingerprint (snapshot.peers.take kMaxPeers) = snapshot.fingerprint := rfl
    rw [tick, hsub, hfp, stateFor, stateFor, dueFor]
    simp only [Bool.not_true, Bool.false_eq_true, if_false]
    by_cases hl : topicId = kLinkTopicId
    · simp only [if_pos hl, Option.map_some]
    by_cases hu : topicId = kUsbTopicId
    · simp only [if_neg hl, if_pos hu, Option.map_some]
    by_cases hp : topicId = kPeersTopicId
    · simp only [if_neg hl, if_neg hu, if_pos hp, Option.map_some]
    · simp only [if_neg hl, if_neg hu, if_neg hp, Option.map_none]

theorem tick_fingerprint :
    (tick g nowMs snapshot).1.peersFingerprint =
        (if dueFor g nowMs snapshot kPeersTopicId then snapshot.fingerprint
          else g.peersFingerprint) ∧
      (tick g nowMs snapshot).1.peersFingerprintValid =
        (dueFor g nowMs snapshot kPeersTopicId || g.peersFingerprintValid) := by
  cases hsub : hasSubscribers g with
  | false =>
    have hrest : dueFor g nowMs snapshot kPeersTopicId = false := not_dueFor hsub
    rw [tick, hsub, hrest]
    exact ⟨rfl, rfl⟩
  | true =>
    rw [tick, hsub]
    exact ⟨rfl, rfl⟩

theorem stateFor_onLocalSubscribe (t : UInt16) (rateMillihz : UInt32) :
    stateFor (onLocalSubscribe g t rateMillihz) topicId = (stateFor g topicId).map fun state =>
      if topicId = t then { state with subscribed := true, periodMs := periodFor t rateMillihz }
      else state := by
  rw [onLocalSubscribe]
  cases hs : stateFor g t with
  | none =>
    by_cases ht : topicId = t
    · rw [ht, hs, Option.map_none]
    · simp [ht]
  | some state =>
    dsimp only
    rw [stateFor_setStateFor g (by rw [hs]; rfl)]
    by_cases ht : topicId = t
    · rw [ht, hs]
      simp
    · simp [ht]

theorem stateFor_onLocalUnsubscribe (t : UInt16) :
    stateFor (onLocalUnsubscribe g t) topicId = (stateFor g topicId).map fun state =>
      if topicId = t then { state with subscribed := false, published := false } else state := by
  rw [onLocalUnsubscribe]
  cases hs : stateFor g t with
  | none =>
    by_cases ht : topicId = t
    · rw [ht, hs, Option.map_none]
    · simp [ht]
  | some state =>
    have hvalid : ∀ g', stateFor (if t = kPeersTopicId then { g' with peersFingerprintValid := false }
        else g') topicId = stateFor g' topicId := by
      intro g'
      split <;> rfl
    dsimp only
    rw [hvalid, stateFor_setStateFor g (by rw [hs]; rfl)]
    by_cases ht : topicId = t
    · rw [ht, hs]
      simp
    · simp [ht]

theorem fingerprint_setStateFor (g : Publisher) (t : UInt16) (state : TopicState) :
    (setStateFor g t state).peersFingerprint = g.peersFingerprint ∧
      (setStateFor g t state).peersFingerprintValid = g.peersFingerprintValid := by
  unfold setStateFor
  split_ifs <;> exact ⟨rfl, rfl⟩

theorem fingerprint_onLocalSubscribe (g : Publisher) (t : UInt16) (rateMillihz : UInt32) :
    (onLocalSubscribe g t rateMillihz).peersFingerprint = g.peersFingerprint ∧
      (onLocalSubscribe g t rateMillihz).peersFingerprintValid = g.peersFingerprintValid := by
  rw [onLocalSubscribe]
  split
  · exact ⟨rfl, rfl⟩
  · exact fingerprint_setStateFor ..

theorem fingerprint_onLocalUnsubscribe (g : Publisher) {t : UInt16} (h : t ≠ kPeersTopicId) :
    (onLocalUnsubscribe g t).peersFingerprint = g.peersFingerprint ∧
      (onLocalUnsubscribe g t).peersFingerprintValid = g.peersFingerprintValid := by
  rw [onLocalUnsubscribe]
  split
  · exact ⟨rfl, rfl⟩
  · rw [if_neg h]
    exact fingerprint_setStateFor ..

/-! ## One step -/

theorem Tracks.start : Tracks {} [] := by
  refine ⟨fun topicId state h => ?_, nofun⟩
  have hstate : state = {} := by
    unfold stateFor at h
    split_ifs at h <;> exact (Option.some.inj h).symm
  subst hstate
  exact ⟨rfl, nofun, fun _ => rfl, nofun, nofun⟩

theorem TopicState.Tracks.published_subscribed (h : state.Tracks topicId past)
    (hp : state.published = true) : state.subscribed = true := by
  cases hs : state.subscribed with
  | true => rfl
  | false => rw [h.unsubscribed hs] at hp; cases hp

theorem TopicState.Tracks.subscribe (h : state.Tracks topicId past) (t : UInt16)
    (rateMillihz : UInt32) :
    TopicState.Tracks
      (if topicId = t then { state with subscribed := true, periodMs := periodFor t rateMillihz }
        else state) topicId (.subscribed t rateMillihz :: past) := by
  by_cases ht : topicId = t
  · subst ht
    rw [if_pos rfl]
    refine ⟨by simp [isSubscribed], fun _ => by simp [grantedPeriod], nofun, fun _ hp => ?_,
      fun hp => ?_⟩
    · rw [lastAttempt]
      split
      · rfl
      · rename_i hs
        refine h.unpublished ?_ hp
        rw [h.subscribed]
        simpa using hs
    · have hs := h.published_subscribed hp
      rw [h.subscribed] at hs
      rw [lastAttempt, hs, if_neg (by simp)]
      exact h.published hp
  · have hne : t ≠ topicId := Ne.symm ht
    have hlast : lastAttempt topicId (.subscribed t rateMillihz :: past) =
        lastAttempt topicId past := by
      rw [lastAttempt, if_neg fun hand => hne hand.1]
    rw [if_neg ht]
    refine ⟨?_, fun hs => ?_, h.unsubscribed, ?_, ?_⟩
    · rw [h.subscribed, isSubscribed, beq_false_of_ne hne, Bool.false_or]
    · rw [h.periodMs hs, grantedPeriod, if_neg hne]
    · rw [hlast]
      exact h.unpublished
    · rw [hlast]
      exact h.published

theorem TopicState.Tracks.unsubscribe (h : state.Tracks topicId past) (t : UInt16) :
    TopicState.Tracks
      (if topicId = t then { state with subscribed := false, published := false } else state)
      topicId (.unsubscribed t :: past) := by
  by_cases ht : topicId = t
  · subst ht
    rw [if_pos rfl]
    exact ⟨by simp [isSubscribed], nofun, fun _ => rfl, nofun, nofun⟩
  · rw [if_neg ht]
    refine ⟨?_, h.periodMs, h.unsubscribed, h.unpublished, h.published⟩
    rw [h.subscribed, isSubscribed, bne_iff_ne.2 (Ne.symm ht), Bool.true_and]

theorem TopicState.Tracks.tick (h : state.Tracks topicId past) (htracks : DonglePublisher.Tracks g past)
    (hcalls : tickCalls g nowMs snapshot emit = calls) :
    TopicState.Tracks (if dueFor g nowMs snapshot topicId then state.stamp nowMs else state)
      topicId (.ticked nowMs snapshot calls :: past) := by
  have hlast : lastAttempt topicId (.ticked nowMs snapshot calls :: past) =
      if dueFor g nowMs snapshot topicId then some (nowMs, snapshot) else lastAttempt topicId past := by
    rw [lastAttempt, ← hcalls, attempted_eq]
  cases hdue : dueFor g nowMs snapshot topicId with
  | true =>
    have hs : state.subscribed = true := by
      rw [h.subscribed]
      exact ((dueFor_iff htracks).1 hdue).2.1
    rw [hdue] at hlast
    exact ⟨h.subscribed, h.periodMs, fun hn => absurd (hs.symm.trans hn) (by decide), nofun,
      fun _ => ⟨snapshot, hlast⟩⟩
  | false =>
    rw [hdue, if_neg (by decide)] at hlast
    refine ⟨h.subscribed, h.periodMs, h.unsubscribed, ?_, ?_⟩
    · rw [hlast]
      exact h.unpublished
    · rw [hlast]
      exact h.published

theorem lastAttempt_of_subscribed {t : UInt16} {rateMillihz : UInt32} {last : UInt32 × Snapshot}
    (h : lastAttempt topicId (.subscribed t rateMillihz :: past) = some last) :
    lastAttempt topicId past = some last := by
  rw [lastAttempt] at h
  split at h
  · cases h
  · exact h

theorem Tracks.subscribe (h : Tracks g past) (t : UInt16) (rateMillihz : UInt32) :
    Tracks (onLocalSubscribe g t rateMillihz) (.subscribed t rateMillihz :: past) := by
  constructor
  · intro topicId state hstate
    rw [stateFor_onLocalSubscribe] at hstate
    obtain ⟨state, hs, rfl⟩ := Option.map_eq_some_iff.1 hstate
    exact (h.topic topicId state hs).subscribe t rateMillihz
  · intro hp
    have hpeers : some (onLocalSubscribe g t rateMillihz).peers = _ :=
      @stateFor_onLocalSubscribe g kPeersTopicId t rateMillihz
    have hpublished : (onLocalSubscribe g t rateMillihz).peers.published = g.peers.published := by
      rw [Option.some.inj hpeers]
      split <;> rfl
    obtain ⟨hvalid, hfp⟩ := h.fingerprint (hpublished ▸ hp)
    obtain ⟨hsameFp, hsameValid⟩ := fingerprint_onLocalSubscribe g t rateMillihz
    rw [hsameFp, hsameValid]
    exact ⟨hvalid, fun lastMs last hlast => hfp lastMs last (lastAttempt_of_subscribed hlast)⟩

theorem Tracks.unsubscribe (h : Tracks g past) (t : UInt16) :
    Tracks (onLocalUnsubscribe g t) (.unsubscribed t :: past) := by
  constructor
  · intro topicId state hstate
    rw [stateFor_onLocalUnsubscribe] at hstate
    obtain ⟨state, hs, rfl⟩ := Option.map_eq_some_iff.1 hstate
    exact (h.topic topicId state hs).unsubscribe t
  · intro hp
    have hpeers : some (onLocalUnsubscribe g t).peers = _ :=
      @stateFor_onLocalUnsubscribe g kPeersTopicId t
    rw [Option.some.inj hpeers] at hp
    dsimp only at hp
    split at hp
    · cases hp
    · rename_i ht
      obtain ⟨hsameFp, hsameValid⟩ := fingerprint_onLocalUnsubscribe g (Ne.symm ht)
      rw [hsameFp, hsameValid]
      exact h.fingerprint hp

theorem Tracks.tick (h : Tracks g past) (hcalls : tickCalls g nowMs snapshot emit = calls) :
    Tracks (DonglePublisher.tick g nowMs snapshot).1 (.ticked nowMs snapshot calls :: past) := by
  constructor
  · intro topicId state hstate
    rw [stateFor_tick] at hstate
    obtain ⟨state, hs, rfl⟩ := Option.map_eq_some_iff.1 hstate
    exact (h.topic topicId state hs).tick h hcalls
  · intro hp
    obtain ⟨hfp, hvalid⟩ := @tick_fingerprint g nowMs snapshot
    have hlast : lastAttempt kPeersTopicId (.ticked nowMs snapshot calls :: past) =
        if dueFor g nowMs snapshot kPeersTopicId then some (nowMs, snapshot)
        else lastAttempt kPeersTopicId past := by
      rw [lastAttempt, ← hcalls, attempted_eq]
    have hpeers : some (DonglePublisher.tick g nowMs snapshot).1.peers = _ :=
      @stateFor_tick g nowMs snapshot kPeersTopicId
    rw [hfp, hvalid, hlast]
    cases hdue : dueFor g nowMs snapshot kPeersTopicId with
    | true =>
      refine ⟨rfl, ?_⟩
      rintro _ _ hlast
      cases hlast
      rfl
    | false =>
      rw [hdue] at hpeers
      have hsame : (DonglePublisher.tick g nowMs snapshot).1.peers = g.peers :=
        Option.some.inj hpeers
      rw [hsame] at hp
      exact h.fingerprint hp

/-! ## Runs -/

theorem Tracks.step {s : Recorded} (h : Tracks s.hub.publisher s.past) (op : Recorded.Op) :
    Tracks (s.step selfSourceId op).hub.publisher (s.step selfSourceId op).past := by
  cases op with
  | onLocalSubscribe topicId rateMillihz => exact h.subscribe topicId rateMillihz
  | onLocalUnsubscribe topicId => exact h.unsubscribe topicId
  | tick nowMs snapshot emit =>
    rw [Recorded.step]
    dsimp only
    rw [Hub.tick_eq]
    exact h.tick rfl

theorem hasSubscribers_iff (h : Tracks g past) :
    hasSubscribers g = true ↔ ∃ topicId ∈ ownTopics, isSubscribed topicId past = true := by
  have hlink := (h.topic kLinkTopicId g.link rfl).subscribed
  have husb := (h.topic kUsbTopicId g.usb rfl).subscribed
  have hpeers := (h.topic kPeersTopicId g.peers rfl).subscribed
  rw [hasSubscribers, hlink, husb, hpeers]
  simp [ownTopics, kTopics, or_assoc]

theorem count_provider (hsub : hasSubscribers g = true) :
    (tickCalls g nowMs snapshot emit).count .provider = 1 := by
  have hnone : ∀ due t payload, (Hub.callsIf due emit t payload).count .provider = 0 := by
    intro due t payload
    rw [Hub.callsIf, attemptCalls]
    split_ifs <;> rfl
  rw [Hub.tickCalls_eq hsub rfl]
  simp [hnone]

theorem Tracks.scheduled (h : Tracks g past) :
    Scheduled past nowMs snapshot emit (tickCalls g nowMs snapshot emit) := by
  refine ⟨fun hnone => ?_, fun hsome => count_provider ((hasSubscribers_iff h).2 hsome), ?_, ?_⟩
  · have hsub : hasSubscribers g = false := by
      rw [← Bool.not_eq_true, hasSubscribers_iff h]
      rintro ⟨topicId, hmem, hs⟩
      rw [hnone topicId hmem] at hs
      cases hs
    rw [tickCalls, hsub]
    rfl
  · intro topicId hdue
    rw [filter_tickCalls, (dueFor_iff h).2 hdue, if_pos rfl]
  · intro topicId hrest
    rw [filter_tickCalls, if_neg fun hdue => hrest ((dueFor_iff h).1 hdue)]

/-- Every tick of every run publishes what is due, and nothing else. -/
theorem run_scheduled (selfSourceId : UInt32) (registry : SubscriptionRegistry.Registry)
    (ops : List Recorded.Op) :
    Run.AllSteps (Recorded.step selfSourceId) (KeepsSchedule selfSourceId) { hub := { registry } } ops := by
  refine Run.AllSteps.of_invariant (I := fun s => Tracks s.hub.publisher s.past)
    (fun s op h _ => h.step op) (fun s op h _ => ?_) Tracks.start (Run.AllSteps.trivial _ _)
  cases op with
  | onLocalSubscribe topicId rateMillihz => trivial
  | onLocalUnsubscribe topicId => trivial
  | tick nowMs snapshot emit =>
    rw [KeepsSchedule, Recorded.step]
    dsimp only
    rw [Hub.tick_eq]
    exact ⟨h.scheduled, rfl⟩

end BallyDongle.DonglePublisher
