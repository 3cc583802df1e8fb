import BallyDongle.BtpTransport.PeerTable
import BallyDongle.LcdDashboard.Repaint
import BallyDongle.Lib.Run

/-!
# What is redrawn, and what is there

The dashboard redraws what has changed since it drew it last. `tick_shows` says that
this is enough: after a tick that does anything the panel is as a repaint from scratch
would leave it, with the values of that moment.
-/

namespace BallyDongle.LcdDashboard

open StringCompat

/-- What the caches say is on the current page. -/
def State.drawnContent (s : State) : Content :=
  match s.currentPage with
  | .activity => .activity s.rxDrawn s.txDrawn s.peersTileDrawn
  | .errors => .text (s.errDrawn.map errorsLines)
  | .session => .text (s.sessionDrawn.map sessionLines)
  | .peers => .text (s.peersPageDrawn.map fun drawn => peersLines drawn.1 drawn.2)

/-- What the values of this moment put on the current page. -/
def State.liveContent (s : State) (now : UInt32) : Content :=
  match s.currentPage with
  | .activity =>
    .activity (some (s.rxHot now)) (some (s.txLive now)) (some (s.peerOnlineCount, s.peerTotalKnown))
  | .errors => .text (some (errorsLines s.errLive))
  | .session => .text (some (sessionLines s.sessionLive))
  | .peers => .text (some (peersLines s.peerRows s.peerTotalKnown))

def State.view (s : State) (content : Content) : View where
  page := s.currentPage
  strip := s.strip
  message := s.message
  content := content

def blank : Screen := fun _ => kRawBlack

/-- What is recorded has room on the panel. -/
structure Recorded (s : State) : Prop where
  strip : Fits 26 s.strip.1
  message : ∀ text color, s.message = some (text, color) → Fits 21 text
  rows : s.peerRows.length ≤ MAX_DISPLAYED_PEERS
  online : s.peerOnlineCount ≤ 4
  total : s.peerTotalKnown ≤ 16
  tile : ∀ online total, s.peersTileDrawn = some (online, total) → online ≤ 4 ∧ total ≤ 16
  page : ∀ rows total, s.peersPageDrawn = some (rows, total) → rows.length ≤ MAX_DISPLAYED_PEERS

/-- The panel shows what the caches say. -/
def Shows (T : Tft) (s : State) (content : Content) : Prop :=
  s.screen = (fullRepaint T (s.view content)).onto blank

structure Sound (T : Tft) (s : State) : Prop where
  recorded : Recorded s
  shows : s.ready = true → Shows T s s.drawnContent

/-! ## The lines have room -/

theorem fits_errorsLine {a b : List Char} (ha : OneLine a) (hb : OneLine b) (m n : Nat) :
    Fits 23 (line24 [a, decimal m, b, decimal n]) := by
  refine fits_line24 ?_
  rw [List.forall_mem_cons, List.forall_mem_cons, List.forall_mem_cons, List.forall_mem_singleton]
  exact ⟨ha, oneLine_decimal m, hb, oneLine_decimal n⟩

theorem fits_errorsLines (live : ErrorCounters) :
    (∀ line ∈ errorsLines live, Fits 23 line.1) ∧ (errorsLines live).length ≤ 5 := by
  constructor
  · rw [errorsLines, List.forall_mem_cons, List.forall_mem_cons, List.forall_mem_singleton]
    exact ⟨fits_errorsLine (by decide) (by decide) _ _, fits_errorsLine (by decide) (by decide) _ _,
      fits_errorsLine (by decide) (by decide) _ _⟩
  · exact Nat.le_add_right 3 2

theorem fits_sessionLines (live : SessionStatus) :
    (∀ line ∈ sessionLines live, Fits 23 line.1) ∧ (sessionLines live).length ≤ 5 := by
  constructor
  · rw [sessionLines, List.forall_mem_cons, List.forall_mem_cons, List.forall_mem_singleton]
    refine ⟨?_, ?_, ?_⟩
    · refine fits_line24 ?_
      rw [List.forall_mem_cons, List.forall_mem_singleton]
      refine ⟨by decide, ?_⟩
      split
      · decide
      · split <;> decide
    · dsimp only
      split
      · refine fits_line24 ?_
        rw [List.forall_mem_cons, List.forall_mem_cons, List.forall_mem_cons, List.forall_mem_cons,
          List.forall_mem_singleton]
        exact ⟨by decide, oneLine_decimal _, by decide, oneLine_decimal _, by decide⟩
      · refine fits_line24 ?_
        rw [List.forall_mem_singleton]
        decide
    · dsimp only
      split
      · exact ⟨by decide, by decide⟩
      · exact ⟨by decide, by decide⟩
  · exact Nat.le_add_right 3 2

theorem oneLine_digits (width n : Nat) : OneLine (Hex.digits width n) := by
  have hdigit : ∀ v < 16, Hex.digit v ≠ '\n' ∧ Hex.digit v ≠ '\r' := by decide
  rw [Hex.digits_eq_map]
  constructor
  · intro h
    obtain ⟨v, hv, heq⟩ := List.mem_map.1 h
    exact (hdigit v (Hex.nibbles_lt hv)).1 heq
  · intro h
    obtain ⟨v, hv, heq⟩ := List.mem_map.1 h
    exact (hdigit v (Hex.nibbles_lt hv)).2 heq

theorem fits_peerLine (row : PeerRow) : Fits 23 (peerLine row).1 := by
  refine fits_line24 ?_
  rw [List.forall_mem_cons, List.forall_mem_cons, List.forall_mem_cons, List.forall_mem_singleton]
  exact ⟨oneLine_digits .., by decide, oneLine_decimal _, by decide⟩

theorem fits_peersLines {rows : List PeerRow} (hrows : rows.length ≤ MAX_DISPLAYED_PEERS)
    (total : Nat) :
    (∀ line ∈ peersLines rows total, Fits 23 line.1) ∧ (peersLines rows total).length ≤ 5 := by
  have hmax : MAX_DISPLAYED_PEERS = 4 := rfl
  unfold peersLines
  split
  · exact ⟨fun line hline => by rw [List.mem_singleton.1 hline]; exact ⟨by decide, by decide⟩,
      by decide⟩
  · constructor
    · intro line hline
      obtain hrow | hmore := List.mem_append.1 hline
      · obtain ⟨row, -, rfl⟩ := List.mem_map.1 hrow
        exact fits_peerLine row
      · split at hmore
        · rw [List.mem_singleton.1 hmore]
          refine fits_line24 ?_
          rw [List.forall_mem_cons, List.forall_mem_cons, List.forall_mem_singleton]
          exact ⟨by decide, oneLine_decimal _, by decide⟩
        · cases hmore
    · rw [List.length_append, List.length_map]
      split
      · rw [List.length_singleton]
        omega
      · rw [List.length_nil]
        omega

theorem oneLine_messageText (text : List Char) : OneLine (messageText text) := by
  refine OneLine.truncated ⟨fun h => ?_, fun h => ?_⟩ _
  · exact notMem_replaceAll_singleton (by decide) (mem_of_mem_trim h)
  · obtain h | h := mem_of_mem_replaceAll (mem_of_mem_trim h)
    · exact notMem_replaceAll_singleton (by decide) h
    · exact absurd h (by decide)

theorem fits_messageText (text : List Char) : Fits 21 (messageText text) := by
  have hmax : maxChars messageRect = 21 := by decide
  refine ⟨oneLine_messageText text, ?_⟩
  rw [messageText, hmax]
  exact length_truncated_le (by decide)

theorem fits_stateText {state : List Char} (h : OneLine state) : Fits 26 (stateText state).1 := by
  have hmax : maxChars stateRect = 26 := by decide
  have htrim : OneLine (trim state) := h.subset fun _ => mem_of_mem_trim
  unfold stateText
  rw [hmax]
  refine ⟨OneLine.truncated ?_ _, length_truncated_le (by decide)⟩
  split
  · decide
  · exact htrim

/-- The only caller of `notifyPeers` has the peers from a table of that size. -/
def Event.Promise : Event → Prop
  | .notifyPeers _ totalKnown => totalKnown ≤ BtpTransport.kPeerIdentityCapacity
  | _ => True

theorem oneLine_robotStateName (value : UInt8) : OneLine (robotStateName value).toList := by
  unfold robotStateName
  split <;> decide

/-! ## One call -/

section step

variable {T : Tft} {s : State} {content : Content}

theorem Recorded.drawn (h : Recorded s) : s.drawnContent.Fits := by
  unfold State.drawnContent
  cases s.currentPage with
  | activity => exact h.tile
  | errors =>
    intro lines hlines
    obtain ⟨drawn, -, rfl⟩ := Option.map_eq_some_iff.1 hlines
    exact fits_errorsLines drawn
  | session =>
    intro lines hlines
    obtain ⟨drawn, -, rfl⟩ := Option.map_eq_some_iff.1 hlines
    exact fits_sessionLines drawn
  | peers =>
    intro lines hlines
    obtain ⟨drawn, hdrawn, rfl⟩ := Option.map_eq_some_iff.1 hlines
    exact fits_peersLines (h.page drawn.1 drawn.2 hdrawn) drawn.2

theorem Recorded.view (h : Recorded s) (hcontent : content.Fits) : (s.view content).Fits :=
  ⟨h.strip, h.message, hcontent⟩

/-- Painted over by what makes of one repaint another. -/
theorem Shows.paint {p : Paint Pixel Color} {v : View} (h : Shows T s content)
    (hrepaint : (fullRepaint T (s.view content)).andThen p = fullRepaint T v) :
    (s.paint p).screen = (fullRepaint T v).onto blank := by
  show p.onto s.screen = _
  rw [h, ← Paint.onto_andThen, hrepaint]

theorem area_fullRepaint (v : View) : (fullRepaint T v).area = Set.univ := by
  refine Set.eq_univ_of_forall fun x => ?_
  have hx : x ∈ (fillScreen kRawWhite).area := by
    rw [fillScreen, Paint.area_fill]
    rfl
  unfold fullRepaint drawFrame
  simp only [Paint.area_andThen, Set.mem_union]
  exact .inl (.inl (.inl hx))

/-- The lines and labels of a page, before anything is shown on it. -/
def pageChrome (T : Tft) : Page → Paint Pixel Color
  | .activity => drawActivityChrome T
  | _ => .nothing

def emptyContent : Page → Content
  | .activity => .activity none none none
  | _ => .text none

theorem drawContent_empty (page : Page) : drawContent T (emptyContent page) =
    (fillRect contentRect kRawWhite).andThen (pageChrome T page) := by
  cases page with
  | activity => exact content_chrome.symm
  | _ => exact (Paint.andThen_nothing _).symm

theorem fits_empty (page : Page) : (emptyContent page).Fits := by
  cases page
  · intro _ _ h
    cases h
  all_goals
    intro _ h
    cases h

theorem paint_chrome (s : State) :
    (if s.currentPage = .activity then s.paint (drawActivityChrome T) else s) =
      s.paint (pageChrome T s.currentPage) := by
  cases hpage : s.currentPage with
  | activity => rfl
  | _ => exact if_neg (by decide)

/-- `s'` is `s` with its caches reset and the panel drawn anew over `screen`. -/
structure Cleared (T : Tft) (s s' : State) (screen : Screen) : Prop where
  strip : s'.strip = defaultState
  message : s'.message = none
  peerRows : s'.peerRows = s.peerRows
  peerOnlineCount : s'.peerOnlineCount = s.peerOnlineCount
  peerTotalKnown : s'.peerTotalKnown = s.peerTotalKnown
  rxDrawn : s'.rxDrawn = none
  txDrawn : s'.txDrawn = none
  peersTileDrawn : s'.peersTileDrawn = none
  peersPageDrawn : s'.peersPageDrawn = none
  errDrawn : s'.errDrawn = none
  sessionDrawn : s'.sessionDrawn = none
  screen : s'.screen = (drawPageIndicator T s'.currentPage).onto
    ((pageChrome T s'.currentPage).onto ((drawDefaultState T).onto (drawFrame.onto screen)))

theorem begin_cleared (s : State) (screen : Screen) (pressed : Bool) (nowMs : UInt32) :
    Cleared T s (s.begin T (some screen) pressed nowMs) screen := by
  unfold State.begin State.paint State.resetCaches State.resetPages
  dsimp only
  constructor <;> rfl

theorem clear_cleared (s : State) (hready : s.ready = true) :
    Cleared T s (s.clear T) s.screen := by
  unfold State.clear
  rw [if_pos hready]
  dsimp only
  rw [paint_chrome]
  unfold State.paint State.resetCaches State.resetPages
  dsimp only
  constructor <;> rfl

theorem Recorded.cleared {s' : State} {screen : Screen} (h : Recorded s) (hc : Cleared T s s' screen) :
    Recorded s' where
  strip := by
    rw [hc.strip]
    exact ⟨by decide, by decide⟩
  message := by simp [hc.message]
  rows := by
    rw [hc.peerRows]
    exact h.rows
  online := by
    rw [hc.peerOnlineCount]
    exact h.online
  total := by
    rw [hc.peerTotalKnown]
    exact h.total
  tile := by simp [hc.peersTileDrawn]
  page := by simp [hc.peersPageDrawn]

theorem drawnContent_empty (hrx : s.rxDrawn = none) (htx : s.txDrawn = none)
    (htile : s.peersTileDrawn = none) (hpage : s.peersPageDrawn = none) (herr : s.errDrawn = none)
    (hsession : s.sessionDrawn = none) : s.drawnContent = emptyContent s.currentPage := by
  unfold State.drawnContent
  cases s.currentPage with
  | activity => simp [emptyContent, hrx, htx, htile]
  | errors => simp [emptyContent, herr]
  | session => simp [emptyContent, hsession]
  | peers => simp [emptyContent, hpage]

section driver

variable (laws : TftLaws T)

include laws

theorem area_pageChrome (page : Page) : (pageChrome T page).area ⊆ contentRect.pixels := by
  have hnothing : (Paint.nothing : Paint Pixel Color).area ⊆ contentRect.pixels := by
    rw [Paint.area_nothing]
    exact Set.empty_subset _
  cases page with
  | activity => exact area_drawActivityChrome laws
  | _ => exact hnothing

theorem Sound.cleared {s' : State} {screen : Screen} (h : Recorded s)
    (hc : Cleared T s s' screen) : Sound T s' := by
  have hrecorded := h.cleared hc
  refine ⟨hrecorded, fun _ => ?_⟩
  have hrepaint := repaint_cleared laws hrecorded.strip s'.currentPage
    (area_pageChrome laws s'.currentPage) (drawContent_empty s'.currentPage)
  rw [drawnContent_empty hc.rxDrawn hc.txDrawn hc.peersTileDrawn hc.peersPageDrawn hc.errDrawn
    hc.sessionDrawn]
  unfold Shows State.view
  rw [hc.screen, hc.message, drawDefaultState, ← hc.strip, ← Paint.onto_andThen drawFrame,
    ← Paint.onto_andThen (drawFrame.andThen _), ← Paint.onto_andThen, hrepaint]
  exact Paint.onto_eq_of_univ (area_fullRepaint _) _ _

theorem Sound.begin (hs : Sound T s) (lcd : Option Screen) (pressed : Bool) (nowMs : UInt32) :
    Sound T (s.begin T lcd pressed nowMs) := by
  cases lcd with
  | none => exact ⟨{ hs.recorded with }, fun hready => by cases hready⟩
  | some screen => exact Sound.cleared laws hs.recorded (begin_cleared s screen pressed nowMs)

theorem Sound.clear (hs : Sound T s) : Sound T (s.clear T) := by
  cases hready : s.ready with
  | true => exact Sound.cleared laws hs.recorded (clear_cleared s hready)
  | false =>
    unfold State.clear
    rw [if_neg (by rw [hready]; decide)]
    exact hs

theorem repaint_switch {v : View} (hv : v.Fits) (page : Page) :
    (((fullRepaint T v).andThen (fillRect contentRect kRawWhite)).andThen (pageChrome T page)).andThen
        (drawPageIndicator T page) =
      fullRepaint T { v with page, content := emptyContent page } := by
  have hchrome : (drawContent T (.text none)).andThen (pageChrome T page) =
      drawContent T (emptyContent page) := by
    rw [drawContent_empty]
    rfl
  have hfits : View.Fits { v with content := emptyContent page } :=
    ⟨hv.strip, hv.message, fits_empty page⟩
  rw [repaint_content (content_blank laws hv.content),
    repaint_content (v := { v with content := .text none }) hchrome]
  exact repaint_indicator laws hfits page

theorem Sound.switchToPage (hs : Sound T s) (hready : s.ready = true) (page : Page) :
    Sound T (s.switchToPage T page) := by
  have hchrome := paint_chrome (T := T)
    ({ s with currentPage := page }.paint (fillRect contentRect kRawWhite)).resetPages
  obtain ⟨hrecorded, hshows⟩ := hs
  have hscreen := hshows hready
  have hswitch := repaint_switch laws (hrecorded.view hrecorded.drawn) page
  change (if page = .activity then _ else _) = _ at hchrome
  unfold State.switchToPage
  dsimp only
  rw [hchrome]
  unfold State.resetPages State.paint
  dsimp only
  refine ⟨{ hrecorded with tile := fun _ _ h => (by cases h), page := fun _ _ h => (by cases h) },
    fun _ => ?_⟩
  rw [drawnContent_empty rfl rfl rfl rfl rfl rfl]
  unfold Shows State.view
  dsimp only
  rw [hscreen, ← Paint.onto_andThen (fullRepaint T _),
    ← Paint.onto_andThen ((fullRepaint T _).andThen _), ← Paint.onto_andThen, hswitch]
  rfl

theorem Sound.pollButton (hs : Sound T s) (hready : s.ready = true) (pressed : Bool) :
    Sound T (s.pollButton T pressed) := by
  have hbutton : ∀ {s : State}, Sound T s → Sound T { s with buttonPressedLast := pressed } :=
    fun h => ⟨{ h.recorded with }, h.shows⟩
  unfold State.pollButton
  dsimp only
  split
  · exact hbutton (hs.switchToPage laws hready _)
  · exact hbutton hs

theorem Sound.showMessage (hs : Sound T s) (text : List Char) (color : Color) (nowMs : UInt32) :
    Sound T (s.showMessage T text color nowMs) := by
  obtain ⟨hrecorded, hshows⟩ := hs
  have hfits : ∀ text' color', some (messageText text, color) = some (text', color') →
      Fits 21 text' := by
    rintro _ _ ⟨⟩
    exact fits_messageText text
  unfold State.showMessage
  split
  · rename_i hready
    refine ⟨{ hrecorded with message := hfits }, fun _ => ?_⟩
    exact (hshows hready).paint
      (repaint_banner laws (hrecorded.view hrecorded.drawn) hfits)
  · exact ⟨hrecorded, hshows⟩

theorem Sound.notifyRobotState (hs : Sound T s) {state : List Char} (hstate : OneLine state) :
    Sound T (s.notifyRobotState T state) := by
  obtain ⟨hrecorded, hshows⟩ := hs
  unfold State.notifyRobotState
  split
  · rename_i hready
    refine ⟨{ hrecorded with strip := fits_stateText hstate }, fun _ => ?_⟩
    exact (hshows hready).paint
      (repaint_strip laws (hrecorded.view hrecorded.drawn) (fits_stateText hstate))
  · exact ⟨hrecorded, hshows⟩

omit laws in
theorem Sound.notifyPeers (hs : Sound T s) (rows : List PeerRow) {totalKnown : Nat}
    (htotal : totalKnown ≤ 16) : Sound T (s.notifyPeers rows totalKnown) := by
  have hrows : (rows.take MAX_DISPLAYED_PEERS).length ≤ MAX_DISPLAYED_PEERS :=
    List.length_take_le ..
  exact ⟨{ hs.recorded with
    rows := hrows, online := List.countP_le_length.trans hrows, total := htotal }, hs.shows⟩

/-! ## What is refreshed -/

/-- What refreshing a page leaves as it is. -/
structure Keeps (s s' : State) : Prop where
  ready : s'.ready = s.ready
  page : s'.currentPage = s.currentPage
  button : s'.buttonPressedLast = s.buttonPressedLast
  refreshed : s'.lastRefreshMs = s.lastRefreshMs
  strip : s'.strip = s.strip
  message : s'.message = s.message
  expire : s'.messageExpireMs = s.messageExpireMs
  rxPulse : s'.rxPulseUntilMs = s.rxPulseUntilMs
  txPulse : s'.txPulseUntilMs = s.txPulseUntilMs
  txHasResult : s'.txHasResult = s.txHasResult
  txLastOk : s'.txLastOk = s.txLastOk
  peerRows : s'.peerRows = s.peerRows
  peerTotalKnown : s'.peerTotalKnown = s.peerTotalKnown
  peerOnlineCount : s'.peerOnlineCount = s.peerOnlineCount
  errLive : s'.errLive = s.errLive
  sessionLive : s'.sessionLive = s.sessionLive

omit laws in
theorem refreshRxTile_keeps (s : State) (now : UInt32) : Keeps s (s.refreshRxTile T now) := by
  unfold State.refreshRxTile State.paint
  split <;> constructor <;> rfl

omit laws in
theorem refreshTxTile_keeps (s : State) (now : UInt32) : Keeps s (s.refreshTxTile T now) := by
  unfold State.refreshTxTile State.paint
  split <;> constructor <;> rfl

omit laws in
theorem refreshPeersTile_keeps (s : State) : Keeps s (s.refreshPeersTile T) := by
  unfold State.refreshPeersTile State.paint
  dsimp only
  split <;> constructor <;> rfl

omit laws in
theorem Keeps.trans {s₁ s₂ s₃ : State} (h : Keeps s₁ s₂) (h' : Keeps s₂ s₃) : Keeps s₁ s₃ := by
  constructor
  · exact h'.ready.trans h.ready
  · exact h'.page.trans h.page
  · exact h'.button.trans h.button
  · exact h'.refreshed.trans h.refreshed
  · exact h'.strip.trans h.strip
  · exact h'.message.trans h.message
  · exact h'.expire.trans h.expire
  · exact h'.rxPulse.trans h.rxPulse
  · exact h'.txPulse.trans h.txPulse
  · exact h'.txHasResult.trans h.txHasResult
  · exact h'.txLastOk.trans h.txLastOk
  · exact h'.peerRows.trans h.peerRows
  · exact h'.peerTotalKnown.trans h.peerTotalKnown
  · exact h'.peerOnlineCount.trans h.peerOnlineCount
  · exact h'.errLive.trans h.errLive
  · exact h'.sessionLive.trans h.sessionLive

omit laws in
theorem refreshPage_keeps (s : State) (now : UInt32) : Keeps s (s.refreshPage T now) := by
  unfold State.refreshPage
  split
  · exact ((refreshRxTile_keeps s now).trans (refreshTxTile_keeps _ now)).trans
      (refreshPeersTile_keeps _)
  · unfold State.refreshErrorsPage State.paint
    split <;> constructor <;> rfl
  · unfold State.refreshSessionPage State.paint
    split <;> constructor <;> rfl
  · unfold State.refreshPeersPage State.paint
    split <;> constructor <;> rfl

omit laws in
theorem ready_of_due {now : UInt32} (h : s.due now = true) : s.ready = true := by
  unfold State.due at h
  rw [Bool.and_eq_true] at h
  exact h.1

omit laws in
theorem ready_pollButton (s : State) (pressed : Bool) :
    (s.pollButton T pressed).ready = s.ready := by
  unfold State.pollButton State.switchToPage State.resetPages State.paint
  dsimp only
  split
  · split <;> rfl
  · rfl

omit laws in
/-- The content of the page painted over, with the caches that say so. -/
theorem Sound.repainted (hs : Sound T s) (hready : s.ready = true) {p : Paint Pixel Color}
    {s' : State} (hrecorded : Recorded s') (hpage : s'.currentPage = s.currentPage)
    (hstrip : s'.strip = s.strip) (hmessage : s'.message = s.message)
    (hscreen : s'.screen = p.onto s.screen)
    (hcontent : (drawContent T s.drawnContent).andThen p = drawContent T s'.drawnContent) :
    Sound T s' := by
  have hshows := hs.shows hready
  refine ⟨hrecorded, fun _ => ?_⟩
  unfold Shows State.view at hshows ⊢
  rw [hpage, hstrip, hmessage, hscreen, hshows, ← Paint.onto_andThen, repaint_content hcontent]

omit laws in
theorem drawnContent_activity (hpage : s.currentPage = .activity) :
    s.drawnContent = .activity s.rxDrawn s.txDrawn s.peersTileDrawn := by
  rw [State.drawnContent, hpage]

omit laws in
theorem Sound.repainted_tile (hs : Sound T s) (hready : s.ready = true)
    (hactivity : s.currentPage = .activity) {p : Paint Pixel Color} {s' : State}
    (hrecorded : Recorded s') (hpage : s'.currentPage = s.currentPage)
    (hstrip : s'.strip = s.strip) (hmessage : s'.message = s.message)
    (hscreen : s'.screen = p.onto s.screen)
    (hcontent : (drawContent T (.activity s.rxDrawn s.txDrawn s.peersTileDrawn)).andThen p =
      drawContent T (.activity s'.rxDrawn s'.txDrawn s'.peersTileDrawn)) :
    Sound T s' := by
  refine hs.repainted hready hrecorded hpage hstrip hmessage hscreen ?_
  rw [drawnContent_activity hactivity, drawnContent_activity (hpage.trans hactivity)]
  exact hcontent

theorem Sound.refreshRxTile (hs : Sound T s) (hready : s.ready = true)
    (hpage : s.currentPage = .activity) (now : UInt32) : Sound T (s.refreshRxTile T now) := by
  have hfits := hs.recorded.drawn
  rw [drawnContent_activity hpage] at hfits
  unfold State.refreshRxTile State.paint
  split
  · exact hs
  · exact hs.repainted_tile hready hpage { hs.recorded with } rfl rfl rfl rfl
      (content_rx laws s.rxDrawn s.txDrawn hfits (s.rxHot now))

theorem Sound.refreshTxTile (hs : Sound T s) (hready : s.ready = true)
    (hpage : s.currentPage = .activity) (now : UInt32) : Sound T (s.refreshTxTile T now) := by
  have hfits := hs.recorded.drawn
  rw [drawnContent_activity hpage] at hfits
  unfold State.refreshTxTile State.paint
  split
  · exact hs
  · exact hs.repainted_tile hready hpage { hs.recorded with } rfl rfl rfl rfl
      (content_tx laws s.rxDrawn s.txDrawn hfits (s.txLive now))

theorem Sound.refreshPeersTile (hs : Sound T s) (hready : s.ready = true)
    (hpage : s.currentPage = .activity) : Sound T (s.refreshPeersTile T) := by
  have hfits := hs.recorded.drawn
  have honline := hs.recorded.online
  have htotal := hs.recorded.total
  rw [drawnContent_activity hpage] at hfits
  unfold State.refreshPeersTile State.paint
  dsimp only
  split
  · exact hs
  · have htile : ∀ online total, some (s.peerOnlineCount, s.peerTotalKnown) = some (online, total) →
        online ≤ 4 ∧ total ≤ 16 := by
      rintro _ _ ⟨⟩
      exact ⟨honline, htotal⟩
    exact hs.repainted_tile hready hpage { hs.recorded with tile := htile } rfl rfl rfl rfl
      (content_peers laws s.rxDrawn s.txDrawn hfits honline htotal)

theorem Sound.refreshErrorsPage (hs : Sound T s) (hready : s.ready = true)
    (hpage : s.currentPage = .errors) : Sound T (s.refreshErrorsPage T) := by
  have hlines := fits_errorsLines s.errLive
  unfold State.refreshErrorsPage State.paint
  split
  · exact hs
  · refine hs.repainted hready { hs.recorded with } rfl rfl rfl rfl ?_
    rw [content_page laws hs.recorded.drawn hlines.1 hlines.2]
    simp [State.drawnContent, hpage]

theorem Sound.refreshSessionPage (hs : Sound T s) (hready : s.ready = true)
    (hpage : s.currentPage = .session) : Sound T (s.refreshSessionPage T) := by
  have hlines := fits_sessionLines s.sessionLive
  unfold State.refreshSessionPage State.paint
  split
  · exact hs
  · refine hs.repainted hready { hs.recorded with } rfl rfl rfl rfl ?_
    rw [content_page laws hs.recorded.drawn hlines.1 hlines.2]
    simp [State.drawnContent, hpage]

theorem Sound.refreshPeersPage (hs : Sound T s) (hready : s.ready = true)
    (hpage : s.currentPage = .peers) : Sound T (s.refreshPeersPage T) := by
  have hrows := hs.recorded.rows
  have hlines := fits_peersLines hrows s.peerTotalKnown
  have hdrawn : ∀ rows total, some (s.peerRows, s.peerTotalKnown) = some (rows, total) →
      rows.length ≤ MAX_DISPLAYED_PEERS := by
    rintro _ _ ⟨⟩
    exact hrows
  unfold State.refreshPeersPage State.paint
  split
  · exact hs
  · refine hs.repainted hready { hs.recorded with page := hdrawn } rfl rfl rfl rfl ?_
    rw [content_page laws hs.recorded.drawn hlines.1 hlines.2]
    simp [State.drawnContent, hpage]

theorem Sound.refreshPage (hs : Sound T s) (hready : s.ready = true) (now : UInt32) :
    Sound T (s.refreshPage T now) := by
  unfold State.refreshPage
  cases hpage : s.currentPage with
  | activity =>
    have hrx := hs.refreshRxTile laws hready hpage now
    have hrxKeeps := refreshRxTile_keeps (T := T) s now
    have htx := hrx.refreshTxTile laws (hrxKeeps.ready.trans hready) (hrxKeeps.page.trans hpage) now
    have htxKeeps := (refreshTxTile_keeps (T := T) (s.refreshRxTile T now) now)
    exact htx.refreshPeersTile laws
      (htxKeeps.ready.trans (hrxKeeps.ready.trans hready))
      (htxKeeps.page.trans (hrxKeeps.page.trans hpage))
  | errors => exact hs.refreshErrorsPage laws hready hpage
  | session => exact hs.refreshSessionPage laws hready hpage
  | peers => exact hs.refreshPeersPage laws hready hpage

theorem Sound.refreshMessageExpiry (hs : Sound T s) (hready : s.ready = true) (now : UInt32) :
    Sound T (s.refreshMessageExpiry now) := by
  have hnone : ∀ text color, (none : Option (List Char × Color)) = some (text, color) →
      Fits 21 text := fun _ _ h => (by cases h)
  have hbanner := repaint_banner laws (hs.recorded.view hs.recorded.drawn) hnone
  rw [drawBanner] at hbanner
  have hscreen := (hs.shows hready).paint hbanner
  have hrecorded := hs.recorded
  unfold State.refreshMessageExpiry
  split
  · unfold State.paint at hscreen ⊢
    dsimp only at hscreen ⊢
    constructor
    · exact ⟨hrecorded.strip, hnone, hrecorded.rows, hrecorded.online, hrecorded.total,
        hrecorded.tile, hrecorded.page⟩
    · intro _
      unfold Shows State.view
      dsimp only
      rw [hscreen]
      rfl
  · exact hs

omit laws in
theorem ready_tick (s : State) (now : UInt32) (pressed : Bool) :
    (s.tick T now pressed).ready = s.ready := by
  have hexpiry : ∀ s : State, (s.refreshMessageExpiry now).ready = s.ready := by
    intro s
    unfold State.refreshMessageExpiry
    split
    · simp [State.paint]
    · rfl
  unfold State.tick
  split
  · rw [hexpiry, (refreshPage_keeps _ now).ready, ready_pollButton]
  · rfl

theorem Sound.tick (hs : Sound T s) (now : UInt32) (pressed : Bool) :
    Sound T (s.tick T now pressed) := by
  unfold State.tick
  split
  · rename_i hdue
    have hready : s.ready = true := ready_of_due hdue
    have hstart : Sound T { s with lastRefreshMs := now } := ⟨{ hs.recorded with }, hs.shows⟩
    have hpoll := hstart.pollButton laws hready pressed
    have hpollReady := (ready_pollButton (T := T) { s with lastRefreshMs := now } pressed).trans hready
    have hpage := hpoll.refreshPage laws hpollReady now
    exact hpage.refreshMessageExpiry laws ((refreshPage_keeps _ now).ready.trans hpollReady) now
  · exact hs

theorem Sound.step (hs : Sound T s) {e : Event} (he : e.Promise) : Sound T (step T s e) := by
  cases e with
  | begin lcd pressed nowMs => exact hs.begin laws lcd pressed nowMs
  | clear => exact hs.clear laws
  | showMessage text color nowMs => exact hs.showMessage laws text color nowMs
  | notifyRx nowMs => exact ⟨{ hs.recorded with }, hs.shows⟩
  | notifyTx delivered nowMs => exact ⟨{ hs.recorded with }, hs.shows⟩
  | notifyRobotState value => exact hs.notifyRobotState laws (oneLine_robotStateName value)
  | notifyPeers rows totalKnown => exact hs.notifyPeers rows he
  | notifyErrorCounters live => exact ⟨{ hs.recorded with }, hs.shows⟩
  | notifySessionStatus protocolled consoleOwned => exact ⟨{ hs.recorded with }, hs.shows⟩
  | notifyStorageStatus sdReady sdUsedMB sdTotalMB dbReady =>
    exact ⟨{ hs.recorded with }, hs.shows⟩
  | tick now pressed => exact hs.tick laws now pressed

end driver

/-! ## What is drawn is what there is -/

theorem liveContent_keeps {s' : State} (h : Keeps s s') (now : UInt32) :
    s'.liveContent now = s.liveContent now := by
  unfold State.liveContent State.rxHot State.txLive
  rw [h.page, h.rxPulse, h.txPulse, h.txHasResult, h.txLastOk, h.peerOnlineCount,
    h.peerTotalKnown, h.errLive, h.sessionLive, h.peerRows]

theorem peerLine_of_sameLine {a b : PeerRow} (h : a.sameLine b = true) : peerLine a = peerLine b := by
  unfold PeerRow.sameLine at h
  rw [Bool.and_eq_true, Bool.and_eq_true, beq_iff_eq, beq_iff_eq, beq_iff_eq] at h
  obtain ⟨⟨hid, hage⟩, honline⟩ := h
  unfold peerLine
  rw [hid, hage, honline]

/-- A peer heard less than a second later has the same line. -/
theorem peersLines_of_sameRows {rows rows' : List PeerRow} (h : sameRows rows rows' = true)
    (total : Nat) : peersLines rows total = peersLines rows' total := by
  have hlines : rows.map peerLine = rows'.map peerLine := by
    induction rows generalizing rows' with
    | nil =>
      cases rows' with
      | nil => rfl
      | cons b bs => simp [sameRows] at h
    | cons a as ih =>
      cases rows' with
      | nil => simp [sameRows] at h
      | cons b bs =>
        rw [sameRows, Bool.and_eq_true] at h
        rw [List.map_cons, List.map_cons, peerLine_of_sameLine h.1, ih h.2]
  have hlen : rows.length = rows'.length := by
    have hmap := congrArg List.length hlines
    rw [List.length_map, List.length_map] at hmap
    exact hmap
  have hnil : rows = [] ↔ rows' = [] := by
    rw [← List.length_eq_zero_iff, hlen, List.length_eq_zero_iff]
  unfold peersLines
  simp only [hnil, hlines, hlen]

theorem refreshRxTile_drawn (s : State) (now : UInt32) :
    (s.refreshRxTile T now).rxDrawn = some (s.rxHot now) := by
  unfold State.refreshRxTile
  split
  · assumption
  · rfl

theorem refreshTxTile_drawn (s : State) (now : UInt32) :
    (s.refreshTxTile T now).txDrawn = some (s.txLive now) ∧
      (s.refreshTxTile T now).rxDrawn = s.rxDrawn := by
  unfold State.refreshTxTile
  split
  · exact ⟨by assumption, rfl⟩
  · exact ⟨rfl, rfl⟩

theorem refreshPeersTile_drawn (s : State) :
    (s.refreshPeersTile T).peersTileDrawn = some (s.peerOnlineCount, s.peerTotalKnown) ∧
      (s.refreshPeersTile T).rxDrawn = s.rxDrawn ∧ (s.refreshPeersTile T).txDrawn = s.txDrawn := by
  unfold State.refreshPeersTile
  dsimp only
  split
  · exact ⟨by assumption, rfl, rfl⟩
  · exact ⟨rfl, rfl, rfl⟩

theorem refreshPeersPage_drawn (s : State) :
    (s.refreshPeersPage T).peersPageDrawn.map (fun drawn => peersLines drawn.1 drawn.2) =
      some (peersLines s.peerRows s.peerTotalKnown) := by
  unfold State.refreshPeersPage
  split
  · rename_i hsame
    unfold State.samePeers at hsame
    cases hdrawn : s.peersPageDrawn with
    | none =>
      rw [hdrawn] at hsame
      cases hsame
    | some drawn =>
      rw [hdrawn] at hsame
      dsimp only at hsame
      rw [Bool.and_eq_true, beq_iff_eq] at hsame
      rw [Option.map_some, peersLines_of_sameRows hsame.1, hsame.2]
  · rfl

theorem refreshPage_drawn (s : State) (now : UInt32) :
    (s.refreshPage T now).drawnContent = s.liveContent now := by
  have hkeeps := refreshPage_keeps (T := T) s now
  unfold State.drawnContent State.liveContent
  rw [hkeeps.page]
  unfold State.refreshPage
  cases hpage : s.currentPage with
  | activity =>
    have hrx := refreshRxTile_keeps (T := T) s now
    have htx := refreshTxTile_keeps (T := T) (s.refreshRxTile T now) now
    obtain ⟨htile, htileRx, htileTx⟩ :=
      refreshPeersTile_drawn (T := T) ((s.refreshRxTile T now).refreshTxTile T now)
    obtain ⟨htxDrawn, htxRx⟩ := refreshTxTile_drawn (T := T) (s.refreshRxTile T now) now
    dsimp only
    rw [htile, htileRx, htileTx, htxDrawn, htxRx, refreshRxTile_drawn, htx.peerOnlineCount,
      htx.peerTotalKnown, hrx.peerOnlineCount, hrx.peerTotalKnown]
    unfold State.txLive
    rw [hrx.txPulse, hrx.txHasResult, hrx.txLastOk]
  | errors =>
    unfold State.refreshErrorsPage
    dsimp only
    split
    · rename_i hdrawn
      rw [hdrawn, Option.map_some]
    · rfl
  | session =>
    unfold State.refreshSessionPage
    dsimp only
    split
    · rename_i hdrawn
      rw [hdrawn, Option.map_some]
    · rfl
  | peers =>
    dsimp only
    rw [refreshPeersPage_drawn]

theorem refreshMessageExpiry_content (s : State) (now now' : UInt32) :
    (s.refreshMessageExpiry now).drawnContent = s.drawnContent ∧
      (s.refreshMessageExpiry now).liveContent now' = s.liveContent now' := by
  unfold State.refreshMessageExpiry
  split
  · simp [State.drawnContent, State.liveContent, State.paint, State.rxHot, State.txLive]
  · exact ⟨rfl, rfl⟩

theorem tick_drawn {now : UInt32} (hdue : s.due now = true) (pressed : Bool) :
    (s.tick T now pressed).drawnContent = (s.tick T now pressed).liveContent now := by
  unfold State.tick
  rw [if_pos hdue, (refreshMessageExpiry_content _ now now).1,
    (refreshMessageExpiry_content _ now now).2, refreshPage_drawn,
    liveContent_keeps (refreshPage_keeps _ now)]

end step

theorem run_sound {T : Tft} (laws : TftLaws T) {es : List Event} (hes : ∀ e ∈ es, e.Promise) :
    Sound T (es.foldl (step T) {}) := by
  have hstart : Sound T {} := by
    refine ⟨⟨by constructor <;> decide, ?_, ?_, ?_, ?_, ?_, ?_⟩, fun h => by cases h⟩
    · intro _ _ h
      cases h
    · exact Nat.zero_le _
    · exact Nat.zero_le _
    · exact Nat.zero_le _
    · intro _ _ h
      cases h
    · intro _ _ h
      cases h
  exact List.foldlRecOn es (step T) hstart fun s hs e he => hs.step laws (hes e he)

/-- After a tick that does anything, the panel is as a repaint from scratch with the
values of that moment would leave it. -/
theorem tick_shows {T : Tft} (laws : TftLaws T) (es : List Event) (hes : ∀ e ∈ es, e.Promise)
    (now : UInt32) (pressed : Bool) (hdue : (es.foldl (step T) {}).due now = true) :
    let s := (es.foldl (step T) {}).tick T now pressed
    s.screen = (fullRepaint T (s.view (s.liveContent now))).onto blank := by
  have hsound := (run_sound laws hes).tick laws now pressed
  have hready : ((es.foldl (step T) {}).tick T now pressed).ready = true := by
    rw [ready_tick]
    exact ready_of_due hdue
  have hshows := hsound.shows hready
  rw [tick_drawn hdue] at hshows
  exact hshows

/-- The columns of a character in the driver's built-in font, of those drawn below. -/
def glyph : Char → List UInt8
  | '-' => [0x08, 0x08, 0x08, 0x08, 0x08]
  | '/' => [0x20, 0x10, 0x08, 0x04, 0x02]
  | '0' => [0x3E, 0x51, 0x49, 0x45, 0x3E]
  | '1' => [0x00, 0x42, 0x7F, 0x40, 0x00]
  | '2' => [0x72, 0x49, 0x49, 0x49, 0x46]
  | '4' => [0x18, 0x14, 0x12, 0x7F, 0x10]
  | ':' => [0x00, 0x00, 0x14, 0x00, 0x00]
  | 'A' => [0x7C, 0x12, 0x11, 0x12, 0x7C]
  | 'C' => [0x3E, 0x41, 0x41, 0x41, 0x22]
  | 'D' => [0x7F, 0x41, 0x41, 0x41, 0x3E]
  | 'E' => [0x7F, 0x49, 0x49, 0x49, 0x41]
  | 'H' => [0x7F, 0x08, 0x08, 0x08, 0x7F]
  | 'M' => [0x7F, 0x02, 0x1C, 0x02, 0x7F]
  | 'P' => [0x7F, 0x09, 0x09, 0x09, 0x06]
  | 'Q' => [0x3E, 0x41, 0x51, 0x21, 0x5E]
  | 'R' => [0x7F, 0x09, 0x19, 0x29, 0x46]
  | 'S' => [0x26, 0x49, 0x49, 0x49, 0x32]
  | 'T' => [0x03, 0x01, 0x7F, 0x01, 0x03]
  | 'U' => [0x3F, 0x40, 0x40, 0x40, 0x3F]
  | 'X' => [0x63, 0x14, 0x08, 0x14, 0x63]
  | 'a' => [0x20, 0x54, 0x54, 0x78, 0x40]
  | 'd' => [0x38, 0x44, 0x44, 0x28, 0x7F]
  | 'e' => [0x38, 0x54, 0x54, 0x54, 0x18]
  | 'o' => [0x38, 0x44, 0x44, 0x44, 0x38]
  | 's' => [0x48, 0x54, 0x54, 0x54, 0x24]
  | 't' => [0x04, 0x04, 0x3F, 0x44, 0x24]
  | _ => []

/-- The driver in that font: a cell of six by eight pixels for a character, its last column
blank. -/
def st7735 : Tft where
  textWidth size text := 6 * size * text.length
  fontHeight size := 8 * size
  print x y size text color background p :=
    if (Rect.mk x y (6 * size * text.length) (8 * size)).contains p then
      let column := (p.1.val - x).toNat / size
      let octet := (glyph (text.getD (column / 6) ' ')).getD (column % 6) 0
      if octet.toNat.testBit ((p.2.val - y).toNat / size) then some color
      else if color = background then none else some background
    else none
  fillCircle x y r color :=
    .fill (fun p => (Rect.mk (x - r) (y - r) (2 * r + 1) (2 * r + 1)).contains p &&
      decide ((p.1.val - x) * (p.1.val - x) + (p.2.val - y) * (p.2.val - y) ≤ r * r)) color

theorem st7735_laws : TftLaws st7735 where
  fontHeight_eq _ _ := rfl
  textWidth_nonneg size text := Int.mul_nonneg (Int.mul_nonneg (by decide) (Int.natCast_nonneg size))
    (Int.natCast_nonneg text.length)
  textWidth_le _ _ _ _ := Int.le_refl _
  print_area x y size text color background _ _ _ _ := by
    intro p hp
    rw [Paint.mem_area] at hp
    by_contra hout
    exact hp (if_neg hout)
  circle_area x y r color _ := by
    intro p hp
    unfold st7735 at hp
    rw [Paint.area_fill] at hp
    exact (Bool.and_eq_true_iff.1 hp).1

/-- The button turns the page to the counters. -/
theorem tick_shows_counters :
    let es := [.begin (some fun _ => kRawBlack) false 0, .notifyErrorCounters { droppedCrc := 2 },
      .notifyPeers [] 0]
    let s := (es.foldl (step st7735) {}).tick st7735 150 true
    s.currentPage = .errors ∧
      s.screen = (fullRepaint st7735 (s.view (s.liveContent 150))).onto blank :=
  ⟨by decide, tick_shows st7735_laws _
    (by simp [Event.Promise]) 150 true (by decide)⟩

/-! ## The banner -/

/-- The panel has a message on the banner, or nothing. -/
def OnBanner (T : Tft) (screen : Screen) (message : Option (List Char × Color)) : Prop :=
  ∀ p ∈ messageRect.pixels, screen p = (drawBanner T message).onto blank p

/-- Neither draws the panel anew nor shows another message, and is no tick that does anything
after the message's time. -/
def Event.KeepsBanner (t : UInt32) (s : State) : Event → Prop
  | .begin .. => False
  | .clear => False
  | .showMessage .. => False
  | .tick now _ => s.due now = true → now - t < MESSAGE_HOLD_MS
  | _ => True

/-- What a message is recorded as. -/
structure Showing (s : State) (text : List Char) (color : Color) (t : UInt32) : Prop where
  ready : s.ready = true
  message : s.message = some (messageText text, color)
  expire : s.messageExpireMs = t + MESSAGE_HOLD_MS

section banner

variable {T : Tft} {s : State} {text : List Char} {color : Color} {t : UInt32}

/-- A sound panel has the banner the dashboard has on record. -/
theorem Sound.onBanner (laws : TftLaws T) (hs : Sound T s) (hready : s.ready = true) :
    OnBanner T s.screen s.message := by
  have hshows : s.screen = _ := hs.shows hready
  have hagain : (drawBanner T s.message).onto s.screen = s.screen := by
    rw [hshows, ← Paint.onto_andThen]
    exact congrArg (Paint.onto · blank)
      (repaint_banner laws (hs.recorded.view hs.recorded.drawn) hs.recorded.message)
  intro p hp
  rw [← area_drawBanner laws hs.recorded.message] at hp
  exact (congrFun hagain p).symm.trans (Paint.onto_eq_of_mem hp _ _)

theorem Showing.start (text : List Char) (color : Color) (t : UInt32) (hready : s.ready = true) :
    Showing (s.showMessage T text color t) text color t := by
  unfold State.showMessage
  rw [if_pos hready]
  exact ⟨hready, rfl, rfl⟩

theorem Showing.pollButton (h : Showing s text color t) (pressed : Bool) :
    Showing (s.pollButton T pressed) text color t := by
  obtain ⟨hready, hmessage, hexpire⟩ := h
  unfold State.pollButton State.switchToPage State.resetPages State.paint
  dsimp only
  split
  · split
    · exact ⟨hready, hmessage, hexpire⟩
    · exact ⟨hready, hmessage, hexpire⟩
  · exact ⟨hready, hmessage, hexpire⟩

theorem Showing.keeps {s' : State} (h : Showing s text color t) (hkeeps : Keeps s s') :
    Showing s' text color t := by
  obtain ⟨hready, hmessage, hexpire⟩ := h
  exact ⟨hkeeps.ready.trans hready, hkeeps.message.trans hmessage, hkeeps.expire.trans hexpire⟩

/-- The banner expires from `MESSAGE_HOLD_MS` on, up to half of the clock later. -/
theorem expired_iff {now t : UInt32} (hnow : now - t < 0x80000000 + MESSAGE_HOLD_MS) :
    now - (t + MESSAGE_HOLD_MS) < 0x80000000 ↔ ¬now - t < MESSAGE_HOLD_MS := by
  have hsub : now - (t + MESSAGE_HOLD_MS) = (now - t) - MESSAGE_HOLD_MS := by
    simp only [UInt32.sub_eq_add_neg, UInt32.neg_add, UInt32.add_assoc]
  rw [hsub]
  generalize now - t = d at hnow ⊢
  unfold MESSAGE_HOLD_MS at hnow ⊢
  rw [UInt32.lt_iff_toNat_lt] at hnow ⊢
  rw [UInt32.lt_iff_toNat_lt, UInt32.toNat_sub]
  have hd : d.toNat < 2 ^ 32 := d.toNat_lt
  change d.toNat < 2147485648 at hnow
  change (2 ^ 32 - 2000 + d.toNat) % 2 ^ 32 < 2147483648 ↔ ¬d.toNat < 2000
  omega

theorem Showing.expiry (h : Showing s text color t) {now : UInt32}
    (hnow : now - t < 0x80000000 + MESSAGE_HOLD_MS) :
    (s.refreshMessageExpiry now).message =
      if now - t < MESSAGE_HOLD_MS then some (messageText text, color) else none := by
  have hexpired : (s.message.isSome && decide (now - s.messageExpireMs < 0x80000000)) = true ↔
      ¬now - t < MESSAGE_HOLD_MS := by
    rw [h.message, h.expire, Option.isSome_some, Bool.true_and, decide_eq_true_iff, expired_iff hnow]
  unfold State.refreshMessageExpiry
  split
  · rename_i hgone
    rw [if_neg (hexpired.1 hgone)]
  · rename_i hstays
    rw [if_pos (not_not.1 fun hlt => hstays (hexpired.2 hlt)), h.message]

theorem Showing.tick (h : Showing s text color t) {now : UInt32} (hdue : s.due now = true)
    (hnow : now - t < 0x80000000 + MESSAGE_HOLD_MS) (pressed : Bool) :
    (s.tick T now pressed).message =
      if now - t < MESSAGE_HOLD_MS then some (messageText text, color) else none := by
  have hstart : Showing { s with lastRefreshMs := now } text color t := ⟨h.ready, h.message, h.expire⟩
  have hpage := (hstart.pollButton (T := T) pressed).keeps (refreshPage_keeps (T := T) _ now)
  unfold State.tick
  rw [if_pos hdue]
  exact hpage.expiry hnow

theorem Showing.tick_early (h : Showing s text color t) {now : UInt32}
    (hnow : s.due now = true → now - t < MESSAGE_HOLD_MS) (pressed : Bool) :
    Showing (s.tick T now pressed) text color t := by
  have hstart : Showing { s with lastRefreshMs := now } text color t := ⟨h.ready, h.message, h.expire⟩
  have hpage := (hstart.pollButton (T := T) pressed).keeps (refreshPage_keeps (T := T) _ now)
  unfold State.tick
  split
  · rename_i hdue
    have hsoon : now - t < 0x80000000 + MESSAGE_HOLD_MS :=
      UInt32.lt_trans (hnow hdue) (by decide)
    have hstays : ¬now - (t + MESSAGE_HOLD_MS) < 0x80000000 :=
      fun hexpired => (expired_iff hsoon).1 hexpired (hnow hdue)
    unfold State.refreshMessageExpiry
    rw [if_neg]
    · exact hpage
    · rw [hpage.expire, Bool.and_eq_true, decide_eq_true_iff]
      exact fun hexpired => hstays hexpired.2
  · exact h

theorem Showing.step (h : Showing s text color t) {e : Event} (he : e.KeepsBanner t s) :
    Showing (step T s e) text color t := by
  obtain ⟨hready, hmessage, hexpire⟩ := h
  cases e with
  | begin lcd pressed nowMs => exact absurd he id
  | clear => exact absurd he id
  | showMessage text color nowMs => exact absurd he id
  | notifyRx nowMs => exact ⟨hready, hmessage, hexpire⟩
  | notifyTx delivered nowMs => exact ⟨hready, hmessage, hexpire⟩
  | notifyRobotState value =>
    unfold LcdDashboard.step State.notifyRobotState
    dsimp only
    split
    · exact ⟨hready, hmessage, hexpire⟩
    · exact ⟨hready, hmessage, hexpire⟩
  | notifyPeers rows totalKnown => exact ⟨hready, hmessage, hexpire⟩
  | notifyErrorCounters live => exact ⟨hready, hmessage, hexpire⟩
  | notifySessionStatus protocolled consoleOwned => exact ⟨hready, hmessage, hexpire⟩
  | notifyStorageStatus sdReady sdUsedMB sdTotalMB dbReady => exact ⟨hready, hmessage, hexpire⟩
  | tick now pressed => exact Showing.tick_early ⟨hready, hmessage, hexpire⟩ he pressed

theorem Showing.run {es : List Event} (h : Showing s text color t)
    (hes : Run.AllSteps (LcdDashboard.step T) (fun s e => e.KeepsBanner t s) s es) :
    Showing (es.foldl (LcdDashboard.step T) s) text color t :=
  (Run.Throughout.of_allSteps (I := fun s => Showing s text color t)
    (fun _ _ h he => h.step he) h hes).final

end banner

/-- The panel has a message on the banner through every call and every tick up to
`MESSAGE_HOLD_MS` after it, and the first tick later that does anything clears it. -/
theorem message_holds {T : Tft} (laws : TftLaws T) (before after : List Event)
    (hpromise : ∀ e ∈ before ++ after, e.Promise) (text : List Char) (color : Color) (t : UInt32)
    (hready : (before.foldl (step T) {}).ready = true)
    (hafter : Run.AllSteps (step T) (fun s e => e.KeepsBanner t s)
      ((before.foldl (step T) {}).showMessage T text color t) after) :
    let s := (before ++ .showMessage text color t :: after).foldl (step T) {}
    OnBanner T s.screen (some (messageText text, color)) ∧
      ∀ now pressed, s.due now = true → now - t < 0x80000000 + MESSAGE_HOLD_MS →
        OnBanner T (s.tick T now pressed).screen
          (if now - t < MESSAGE_HOLD_MS then some (messageText text, color) else none) := by
  intro s
  have hshowing : Showing s text color t := by
    change Showing ((before ++ .showMessage text color t :: after).foldl (step T) {}) text color t
    rw [List.foldl_append, List.foldl_cons]
    exact (Showing.start (T := T) text color t hready).run hafter
  have hsound : Sound T s := by
    refine run_sound laws fun e he => ?_
    obtain he | rfl | he := by simpa using he
    · exact hpromise e (List.mem_append_left _ he)
    · exact trivial
    · exact hpromise e (List.mem_append_right _ he)
  constructor
  · rw [← hshowing.message]
    exact hsound.onBanner laws hshowing.ready
  · intro now pressed hdue hnow
    rw [← hshowing.tick hdue hnow pressed]
    refine (hsound.tick laws now pressed).onBanner laws ?_
    rw [ready_tick]
    exact hshowing.ready

/-- A tick at 2100 comes too soon after the one at 2000 to do anything; one at 2150 clears
the banner. -/
theorem message_holds_pulse :
    let es : List Event := [.begin (some fun _ => kRawBlack) false 0] ++
      .showMessage "conectado".toList kRawGreen 100 ::
        [.notifyRx 200, .tick 2000 false, .tick 2100 false]
    OnBanner st7735 (es.foldl (step st7735) {}).screen (some ("conectado".toList, kRawGreen)) ∧
      OnBanner st7735 ((es.foldl (step st7735) {}).tick st7735 2150 false).screen none := by
  have h := message_holds st7735_laws [.begin (some fun _ => kRawBlack) false 0]
    [.notifyRx 200, .tick 2000 false, .tick 2100 false] (by simp [Event.Promise])
    "conectado".toList kRawGreen 100 (by decide)
    ⟨trivial, fun _ => by decide, fun hdue => absurd hdue (by decide), trivial⟩
  exact ⟨h.1, h.2 2150 false (by decide) (by decide)⟩

end BallyDongle.LcdDashboard
