import BallyDongle.Lib.Hex
import BallyDongle.Lib.Painting
import BallyDongle.StringCompat

/-!
# The LCD dashboard

`LcdDashboard.cpp`, on the panel in landscape: a message banner, the page indicator, the
state strip and one of four pages, turned by the BOOT button. The `notify` calls record
values, `tick` redraws of the current page what differs from what it drew last.
-/

namespace BallyDongle.LcdDashboard

open StringCompat

abbrev Color := UInt16

def screenW : Nat := 160
def screenH : Nat := 80

abbrev Pixel := Fin screenW × Fin screenH

def kRawWhite : Color := 0xFFFF
def kRawBlack : Color := 0x0000
def kRawRed : Color := 0xF800
def kRawYellow : Color := 0xFFE0
def kRawGreen : Color := 0x07E0
def kRawCyan : Color := 0x07FF
def kRawGridLine : Color := 0xC618
def kNeutralGray565 : Color := 0x8410
def kBarHeight : Int := 16
def kPageIndicatorWidth : Int := 30
def kStateStripHeight : Int := 12
def kTextLineHeight : Int := 10

def REFRESH_INTERVAL_MS : UInt32 := 150
def PULSE_HOLD_MS : UInt32 := 400
def MESSAGE_HOLD_MS : UInt32 := 2000
def MAX_DISPLAYED_PEERS : Nat := 4

/-! ## Drawing -/

structure Rect where
  x : Int
  y : Int
  w : Int
  h : Int
  deriving DecidableEq

def Rect.contains (r : Rect) (p : Pixel) : Bool :=
  r.x ≤ p.1.val && p.1.val < r.x + r.w && (r.y ≤ p.2.val && p.2.val < r.y + r.h)

/-- Text and circles as the panel's driver draws them. -/
structure Tft where
  textWidth (size : Nat) (text : List Char) : Int
  fontHeight (size : Nat) : Int
  print (x y : Int) (size : Nat) (text : List Char) (color background : Color) : Paint Pixel Color
  fillCircle (x y r : Int) (color : Color) : Paint Pixel Color

def fillScreen (c : Color) : Paint Pixel Color := .fill (fun _ => true) c
def fillRect (r : Rect) (c : Color) : Paint Pixel Color := .fill r.contains c
def drawFastHLine (x y w : Int) (c : Color) : Paint Pixel Color := fillRect ⟨x, y, w, 1⟩ c
def drawFastVLine (x y h : Int) (c : Color) : Paint Pixel Color := fillRect ⟨x, y, 1, h⟩ c

/-! The rectangles of `layoutChrome`. -/

def pageIndicatorRect : Rect := ⟨screenW - kPageIndicatorWidth, 0, kPageIndicatorWidth, kBarHeight⟩
def messageRect : Rect := ⟨0, 0, screenW - kPageIndicatorWidth, kBarHeight⟩
def stateRect : Rect := ⟨0, kBarHeight + 1, screenW, kStateStripHeight⟩
def contentY : Int := stateRect.y + stateRect.h + 1
def contentRect : Rect := ⟨0, contentY, screenW, screenH - contentY⟩
def colW : Int := contentRect.w / 3
def rxTile : Rect := ⟨contentRect.x, contentRect.y, colW, contentRect.h⟩
def txTile : Rect := ⟨contentRect.x + colW, contentRect.y, colW, contentRect.h⟩
def peersTile : Rect :=
  ⟨contentRect.x + colW * 2, contentRect.y, contentRect.w - colW * 2, contentRect.h⟩

def toPanelColor (desiredColor : Color) : Color :=
  let inverted := ~~~desiredColor
  let r := (inverted >>> 11) &&& 0x1F
  let g := (inverted >>> 5) &&& 0x3F
  let b := inverted &&& 0x1F
  (b <<< 11) ||| (g <<< 5) ||| r

def valueArea (tile : Rect) : Rect := ⟨tile.x + 1, tile.y + 10, tile.w - 2, tile.h - 11⟩

/-- The centre and the radius of the dot in a tile with that label. -/
def dotRadius (tile : Rect) : Int :=
  let area := valueArea tile
  let shorterSide := if area.w < area.h then area.w else area.h
  max 2 (shorterSide / 2 - 2)

def dotX (tile : Rect) : Int := tile.x + tile.w / 2

def dotY (tile : Rect) (label : List Char) : Int :=
  let labelRight := tile.x + 3 + label.length * 6
  let labelBottom := tile.y + 2 + 8
  if dotX tile - dotRadius tile < labelRight then labelBottom + dotRadius tile + 2
  else tile.y + tile.h / 2

/-- What `drawActivityDot` clears. -/
def dotBox (tile : Rect) (label : List Char) : Rect :=
  ⟨dotX tile - dotRadius tile - 1, dotY tile label - dotRadius tile - 1,
    dotRadius tile * 2 + 2, dotRadius tile * 2 + 2⟩

inductive Page
  | activity | errors | session | peers
  deriving DecidableEq

def Page.number : Page → Nat
  | .activity => 1 | .errors => 2 | .session => 3 | .peers => 4

def Page.kCount : Nat := 4

def Page.next : Page → Page
  | .activity => .errors | .errors => .session | .session => .peers | .peers => .activity

/-- A number under `%u`, `%lu`. -/
def decimal (n : Nat) : List Char := Nat.toDigits 10 n

section draw

variable (T : Tft)

def drawLabel (tile : Rect) (label : List Char) : Paint Pixel Color :=
  T.print (tile.x + 3) (tile.y + 2) 1 label kRawBlack kRawWhite

def drawCenteredValue (tile : Rect) (text : List Char) (color : Color) (textSize : Nat) :
    Paint Pixel Color :=
  let area := valueArea tile
  (fillRect area kRawWhite).andThen
    (if text = [] then .nothing
    else
      T.print (area.x + (area.w - T.textWidth textSize text).tdiv 2)
        (area.y + (area.h - T.fontHeight textSize).tdiv 2) textSize text color kRawWhite)

def drawActivityDot (tile : Rect) (label : List Char) (color : Color) : Paint Pixel Color :=
  (fillRect (dotBox tile label) kRawWhite).andThen
    (T.fillCircle (dotX tile) (dotY tile label) (dotRadius tile) color)

def drawTextLine (x y : Int) (text : List Char) (color : Color) : Paint Pixel Color :=
  T.print x y 1 text color kRawWhite

def drawPageIndicator (page : Page) : Paint Pixel Color :=
  let buf := (decimal page.number ++ '/' :: decimal Page.kCount).take 7
  (fillRect pageIndicatorRect kRawWhite).andThen
    (drawTextLine T (pageIndicatorRect.x + 2)
      (pageIndicatorRect.y + (pageIndicatorRect.h - 8) / 2) buf kRawBlack)

def drawState (text : List Char) (color : Color) : Paint Pixel Color :=
  (fillRect stateRect kRawWhite).andThen
    (drawTextLine T (stateRect.x + 2) (stateRect.y + (stateRect.h - 8) / 2) text color)

def defaultState : List Char × Color := ("estado: --".toList, toPanelColor kNeutralGray565)

def drawDefaultState : Paint Pixel Color := drawState T defaultState.1 defaultState.2

def drawActivityChrome : Paint Pixel Color :=
  ((((drawFastVLine txTile.x contentRect.y contentRect.h kRawGridLine).andThen
    (drawFastVLine peersTile.x contentRect.y contentRect.h kRawGridLine)).andThen
      (drawLabel T rxTile "RX".toList)).andThen (drawLabel T txTile "TX".toList)).andThen
        (drawLabel T peersTile "PEERS".toList)

/-- White, and the two lines around the state strip. -/
def drawFrame : Paint Pixel Color :=
  ((fillScreen kRawWhite).andThen (drawFastHLine 0 kBarHeight screenW kRawGridLine)).andThen
    (drawFastHLine 0 (stateRect.y + stateRect.h) screenW kRawGridLine)

/-- Lines of text from `y` on. -/
def drawLines (y : Int) : List (List Char × Color) → Paint Pixel Color
  | [] => .nothing
  | (text, color) :: rest =>
    (drawTextLine T (contentRect.x + 2) y text color).andThen (drawLines (y + kTextLineHeight) rest)

/-- A page of text. -/
def drawPage (lines : List (List Char × Color)) : Paint Pixel Color :=
  (fillRect contentRect kRawWhite).andThen (drawLines T (contentRect.y + 2) lines)

end draw

/-! ## What the pages say -/

structure PeerRow where
  sourceId : UInt32
  lastSeenAgeMs : UInt32
  online : Bool
  deriving DecidableEq

structure ErrorCounters where
  droppedRx : UInt32 := 0
  droppedDecode : UInt32 := 0
  droppedCrc : UInt32 := 0
  droppedReassembly : UInt32 := 0
  droppedQueueFull : UInt32 := 0
  droppedAuth : UInt32 := 0
  deriving DecidableEq

structure SessionStatus where
  protocolled : Bool := false
  consoleOwned : Bool := false
  sdReady : Bool := false
  sdUsedMB : UInt64 := 0
  sdTotalMB : UInt64 := 0
  dbReady : Bool := false
  deriving DecidableEq

def rxColor (hot : Bool) : Color := toPanelColor (if hot then kRawCyan else kNeutralGray565)

def txColor (hot hasResult ok : Bool) : Color :=
  toPanelColor
    (if hot then kRawCyan
    else if hasResult then (if ok then kRawGreen else kRawRed)
    else kNeutralGray565)

def peersText (online total : Nat) : List Char := (decimal online ++ '/' :: decimal total).take 11

def peersColor (online total : Nat) : Color :=
  toPanelColor
    (if 0 < total then
      (if online = 0 then kRawRed else if online < total then kRawYellow else kRawGreen)
    else kNeutralGray565)

/-- What `snprintf` writes into 24 octets. -/
def line24 (parts : List (List Char)) : List Char := parts.flatten.take 23

def errorsLines (live : ErrorCounters) : List (List Char × Color) :=
  let total := live.droppedRx + live.droppedDecode + live.droppedCrc + live.droppedReassembly +
    live.droppedQueueFull + live.droppedAuth
  let color := toPanelColor (if 0 < total then kRawRed else kNeutralGray565)
  [(line24 ["RX:".toList, decimal live.droppedRx.toNat, "  DEC:".toList,
      decimal live.droppedDecode.toNat], color),
    (line24 ["CRC:".toList, decimal live.droppedCrc.toNat, "  REASM:".toList,
      decimal live.droppedReassembly.toNat], color),
    (line24 ["Q:".toList, decimal live.droppedQueueFull.toNat, "  AUTH:".toList,
      decimal live.droppedAuth.toNat], color)]

/-- The sizes are printed as `unsigned long`, which has 32 bits. -/
def sessionLines (live : SessionStatus) : List (List Char × Color) :=
  let btpLabel := if live.consoleOwned then "Console" else if live.protocolled then "Protocolado"
    else "Aguardando"
  let btpColor := if live.consoleOwned then kNeutralGray565
    else if live.protocolled then kRawGreen else kRawYellow
  [(line24 ["BTP: ".toList, btpLabel.toList], toPanelColor btpColor),
    (if live.sdReady then
        line24 ["SD ".toList, decimal live.sdUsedMB.toUInt32.toNat, "/".toList,
          decimal live.sdTotalMB.toUInt32.toNat, "MB".toList]
      else line24 ["SD ausente".toList],
      toPanelColor (if live.sdReady then kRawGreen else kNeutralGray565)),
    ((if live.dbReady then "DB pronto" else "DB indisponivel").toList,
      toPanelColor (if live.dbReady then kRawGreen else kNeutralGray565))]

def peerLine (row : PeerRow) : List Char × Color :=
  (line24 [Hex.digits 4 (row.sourceId &&& 0xFFFF).toNat, "  ".toList,
      decimal (row.lastSeenAgeMs / 1000).toNat, "s".toList],
    toPanelColor (if row.online then kRawGreen else kNeutralGray565))

def peersLines (rows : List PeerRow) (totalKnown : Nat) : List (List Char × Color) :=
  if rows = [] then [("sem peers".toList, toPanelColor kNeutralGray565)]
  else
    rows.map peerLine ++
      (if rows.length < totalKnown then
        [(line24 ["+".toList, decimal (totalKnown - rows.length), " mais".toList],
          toPanelColor kNeutralGray565)]
      else [])

/-- A text cut to `maxChars`, its end replaced by dots where they fit. -/
def truncated (maxChars : Nat) (text : List Char) : List Char :=
  if 0 < maxChars ∧ maxChars < text.length then
    (if 3 < maxChars then text.take (maxChars - 3) ++ "...".toList else text.take maxChars)
  else text

/-- The characters that fit a rectangle, six pixels each. -/
def maxChars (r : Rect) : Nat := if 4 < r.w then ((r.w - 4) / 6).toNat else 0

/-- What `showMessage` prints. -/
def messageText (text : List Char) : List Char :=
  truncated (maxChars messageRect)
    (trim (replaceAll (replaceAll text "\r".toList " ".toList) "\n".toList " ".toList))

/-- `indexOf(s, word) >= 0`. -/
def containsWord (s : List Char) (word : String) : Bool := s.tails.any word.toList.isPrefixOf

def stateColor (lower : List Char) : Color :=
  let has := containsWord lower
  if has "erro" || has "error" || has "fault" then kRawRed
  else if has "warn" || has "aviso" then kRawYellow
  else if has "ok" || has "pronto" || has "ready" || has "idle" || has "run" then kRawGreen
  else kNeutralGray565

/-- What `notifyRobotState` prints. -/
def stateText (state : List Char) : List Char × Color :=
  let text := if trim state = [] then "?".toList else trim state
  (truncated (maxChars stateRect) text, toPanelColor (stateColor (text.map toLower)))

def robotStateName (value : UInt8) : String :=
  match value with
  | 0 => "NONE" | 1 => "SETUP" | 2 => "WAIT" | 3 => "CALIBRATE" | 4 => "DEBUG" | 5 => "RUN"
  | 6 => "FINISH" | 7 => "TELEMETRY" | 8 => "ERROR" | _ => "UNKNOWN"

/-! ## The dashboard -/

abbrev Screen := Pixel → Color

/-- The panel and the dashboard. A cache is `none` while it is not valid. The source
keeps the text of the strip and of the banner on the panel alone; the banner is active
while there is a message. -/
structure State where
  screen : Screen := fun _ => kRawBlack
  ready : Bool := false
  lastRefreshMs : UInt32 := 0
  currentPage : Page := .activity
  buttonPressedLast : Bool := false
  strip : List Char × Color := defaultState
  message : Option (List Char × Color) := none
  messageExpireMs : UInt32 := 0
  rxPulseUntilMs : UInt32 := 0
  rxDrawn : Option Bool := none
  txPulseUntilMs : UInt32 := 0
  txHasResult : Bool := false
  txLastOk : Bool := false
  txDrawn : Option (Bool × Bool × Bool) := none
  peerRows : List PeerRow := []
  peerTotalKnown : Nat := 0
  peerOnlineCount : Nat := 0
  peersTileDrawn : Option (Nat × Nat) := none
  peersPageDrawn : Option (List PeerRow × Nat) := none
  errLive : ErrorCounters := {}
  errDrawn : Option ErrorCounters := none
  sessionLive : SessionStatus := {}
  sessionDrawn : Option SessionStatus := none

/-- `until` lies ahead of `now`: `static_cast<int32_t>(until - now) > 0`. -/
def ahead (untilMs now : UInt32) : Bool := untilMs - now != 0 && untilMs - now < 0x80000000

/-- Rows with the same line on the page: the age counts in seconds. -/
def PeerRow.sameLine (a b : PeerRow) : Bool :=
  a.sourceId == b.sourceId && a.lastSeenAgeMs / 1000 == b.lastSeenAgeMs / 1000 &&
    a.online == b.online

def sameRows : List PeerRow → List PeerRow → Bool
  | [], [] => true
  | a :: as, b :: bs => a.sameLine b && sameRows as bs
  | _, _ => false

namespace State

variable (T : Tft) (s : State)

def paint (p : Paint Pixel Color) : State := { s with screen := p.onto s.screen }

/-- The caches of the pages. -/
def resetPages : State :=
  { s with
    rxDrawn := none, txDrawn := none, peersTileDrawn := none, peersPageDrawn := none
    errDrawn := none, sessionDrawn := none }

def resetCaches : State := { s.resetPages with message := none }

/-- The driver has cleared the panel, or there is none; the button is down or up. -/
def begin (lcd : Option Screen) (pressed : Bool) (nowMs : UInt32) : State :=
  match lcd with
  | none => { s with ready := false }
  | some screen =>
    let s := { s with screen, currentPage := .activity, buttonPressedLast := pressed }.resetCaches
    let s := { (s.paint drawFrame) with strip := defaultState }
    let s := ((s.paint (drawDefaultState T)).paint (drawActivityChrome T)).paint
      (drawPageIndicator T .activity)
    { s with ready := true, lastRefreshMs := nowMs - REFRESH_INTERVAL_MS }

def clear : State :=
  if s.ready then
    let s := { (s.resetCaches.paint drawFrame) with strip := defaultState }
    let s := s.paint (drawDefaultState T)
    let s := if s.currentPage = .activity then s.paint (drawActivityChrome T) else s
    s.paint (drawPageIndicator T s.currentPage)
  else s

def switchToPage (page : Page) : State :=
  let s := ({ s with currentPage := page }.paint (fillRect contentRect kRawWhite)).resetPages
  let s := if page = .activity then s.paint (drawActivityChrome T) else s
  s.paint (drawPageIndicator T page)

/-- The page turns when the button goes down. -/
def pollButton (pressed : Bool) : State :=
  let s := if pressed && !s.buttonPressedLast then s.switchToPage T s.currentPage.next else s
  { s with buttonPressedLast := pressed }

def drawMessage (text : List Char) (color : Color) : Paint Pixel Color :=
  (fillRect messageRect kRawWhite).andThen
    (T.print (messageRect.x + 2) (messageRect.y + (messageRect.h - 8) / 2) 1 (cStr text) color
      kRawWhite)

def showMessage (text : List Char) (color : Color) (nowMs : UInt32) : State :=
  if s.ready then
    let s := s.paint (drawMessage T (messageText text) color)
    { s with message := some (messageText text, color), messageExpireMs := nowMs + MESSAGE_HOLD_MS }
  else s

def notifyRx (nowMs : UInt32) : State := { s with rxPulseUntilMs := nowMs + PULSE_HOLD_MS }

def notifyTx (delivered : Bool) (nowMs : UInt32) : State :=
  { s with txPulseUntilMs := nowMs + PULSE_HOLD_MS, txLastOk := delivered, txHasResult := true }

def notifyRobotState (state : List Char) : State :=
  if s.ready then
    let strip := stateText state
    { s.paint (drawState T strip.1 strip.2) with strip }
  else s

def notifyPeers (rows : List PeerRow) (totalKnown : Nat) : State :=
  let peerRows := rows.take MAX_DISPLAYED_PEERS
  { s with peerRows, peerTotalKnown := totalKnown
           peerOnlineCount := peerRows.countP PeerRow.online }

def notifyErrorCounters (live : ErrorCounters) : State := { s with errLive := live }

def notifySessionStatus (protocolled consoleOwned : Bool) : State :=
  { s with sessionLive := { s.sessionLive with protocolled, consoleOwned } }

def notifyStorageStatus (sdReady : Bool) (sdUsedMB sdTotalMB : UInt64) (dbReady : Bool) : State :=
  { s with sessionLive := { s.sessionLive with sdReady, sdUsedMB, sdTotalMB, dbReady } }

def rxHot (now : UInt32) : Bool := ahead s.rxPulseUntilMs now

def txLive (now : UInt32) : Bool × Bool × Bool :=
  (ahead s.txPulseUntilMs now, s.txHasResult, s.txLastOk)

def refreshRxTile (now : UInt32) : State :=
  if s.rxDrawn = some (s.rxHot now) then s
  else
    { s.paint (drawActivityDot T rxTile "RX".toList (rxColor (s.rxHot now))) with
      rxDrawn := some (s.rxHot now) }

def refreshTxTile (now : UInt32) : State :=
  if s.txDrawn = some (s.txLive now) then s
  else
    let (hot, hasResult, ok) := s.txLive now
    { s.paint (drawActivityDot T txTile "TX".toList (txColor hot hasResult ok)) with
      txDrawn := some (hot, hasResult, ok) }

def refreshPeersTile : State :=
  let online := s.peerOnlineCount
  let total := s.peerTotalKnown
  if s.peersTileDrawn = some (online, total) then s
  else
    { s.paint (drawCenteredValue T peersTile (peersText online total) (peersColor online total) 2) with
      peersTileDrawn := some (online, total) }

def refreshErrorsPage : State :=
  if s.errDrawn = some s.errLive then s
  else { s.paint (drawPage T (errorsLines s.errLive)) with errDrawn := some s.errLive }

def refreshSessionPage : State :=
  if s.sessionDrawn = some s.sessionLive then s
  else { s.paint (drawPage T (sessionLines s.sessionLive)) with sessionDrawn := some s.sessionLive }

/-- The page shows the peers as they are. -/
def samePeers : Bool :=
  match s.peersPageDrawn with
  | none => false
  | some (rows, totalKnown) => sameRows rows s.peerRows && totalKnown == s.peerTotalKnown

def refreshPeersPage : State :=
  if s.samePeers then s
  else
    { s.paint (drawPage T (peersLines s.peerRows s.peerTotalKnown)) with
      peersPageDrawn := some (s.peerRows, s.peerTotalKnown) }

def refreshPage (now : UInt32) : State :=
  match s.currentPage with
  | .activity => ((s.refreshRxTile T now).refreshTxTile T now).refreshPeersTile T
  | .errors => s.refreshErrorsPage T
  | .session => s.refreshSessionPage T
  | .peers => s.refreshPeersPage T

def refreshMessageExpiry (now : UInt32) : State :=
  if s.message.isSome && now - s.messageExpireMs < 0x80000000 then
    { s.paint (fillRect messageRect kRawWhite) with message := none }
  else s

/-- The time for a `tick` to do anything has come. -/
def due (now : UInt32) : Bool := s.ready && !(now - s.lastRefreshMs < REFRESH_INTERVAL_MS)

def tick (now : UInt32) (pressed : Bool) : State :=
  if s.due now then
    ((({ s with lastRefreshMs := now }.pollButton T pressed).refreshPage T now).refreshMessageExpiry
      now)
  else s

end State

/-- A call by whoever uses the dashboard. -/
inductive Event
  | begin (lcd : Option Screen) (pressed : Bool) (nowMs : UInt32)
  | clear
  | showMessage (text : List Char) (color : Color) (nowMs : UInt32)
  | notifyRx (nowMs : UInt32)
  | notifyTx (delivered : Bool) (nowMs : UInt32)
  | notifyRobotState (value : UInt8)
  | notifyPeers (rows : List PeerRow) (totalKnown : Nat)
  | notifyErrorCounters (live : ErrorCounters)
  | notifySessionStatus (protocolled consoleOwned : Bool)
  | notifyStorageStatus (sdReady : Bool) (sdUsedMB sdTotalMB : UInt64) (dbReady : Bool)
  | tick (now : UInt32) (pressed : Bool)

def step (T : Tft) (s : State) : Event → State
  | .begin lcd pressed nowMs => s.begin T lcd pressed nowMs
  | .clear => s.clear T
  | .showMessage text color nowMs => s.showMessage T text color nowMs
  | .notifyRx nowMs => s.notifyRx nowMs
  | .notifyTx delivered nowMs => s.notifyTx delivered nowMs
  | .notifyRobotState value => s.notifyRobotState T (robotStateName value).toList
  | .notifyPeers rows totalKnown => s.notifyPeers rows totalKnown
  | .notifyErrorCounters live => s.notifyErrorCounters live
  | .notifySessionStatus protocolled consoleOwned => s.notifySessionStatus protocolled consoleOwned
  | .notifyStorageStatus sdReady sdUsedMB sdTotalMB dbReady =>
    s.notifyStorageStatus sdReady sdUsedMB sdTotalMB dbReady
  | .tick now pressed => s.tick T now pressed

end BallyDongle.LcdDashboard
