import BallyDongle.LcdDashboard

/-!
# The parts of the panel

What each drawing function covers, given how the driver draws text and circles. The
parts do not overlap, so that one of them painted anew leaves the panel as a repaint
from scratch (`fullRepaint`) with that part changed.
-/

namespace BallyDongle.LcdDashboard

open StringCompat

/-! ## Rectangles -/

def Rect.pixels (r : Rect) : Set Pixel := {p | r.contains p = true}

/-- `r` lies in `r'`. -/
def Rect.Within (r r' : Rect) : Prop :=
  (r'.x ≤ r.x ∧ r.x + r.w ≤ r'.x + r'.w) ∧ r'.y ≤ r.y ∧ r.y + r.h ≤ r'.y + r'.h

/-- A line separates `r` and `r'`. -/
def Rect.Apart (r r' : Rect) : Prop :=
  (r.x + r.w ≤ r'.x ∨ r'.x + r'.w ≤ r.x) ∨ r.y + r.h ≤ r'.y ∨ r'.y + r'.h ≤ r.y

instance (r r' : Rect) : Decidable (r.Within r') :=
  inferInstanceAs (Decidable ((_ ∧ _) ∧ _ ∧ _))

instance (r r' : Rect) : Decidable (r.Apart r') :=
  inferInstanceAs (Decidable ((_ ∨ _) ∨ _ ∨ _))

variable {r r' : Rect} {p : Pixel}

theorem Rect.mem_pixels : p ∈ r.pixels ↔
    (r.x ≤ p.1.val ∧ (p.1.val : Int) < r.x + r.w) ∧ r.y ≤ p.2.val ∧ (p.2.val : Int) < r.y + r.h := by
  rw [Rect.pixels]
  simp [Rect.contains]

theorem Rect.Within.subset (h : r.Within r') : r.pixels ⊆ r'.pixels := by
  intro p hp
  unfold Rect.Within at h
  rw [Rect.mem_pixels] at hp ⊢
  omega

theorem Rect.Apart.disjoint (h : r.Apart r') : Disjoint r.pixels r'.pixels := by
  rw [Set.disjoint_left]
  intro p hp hp'
  unfold Rect.Apart at h
  rw [Rect.mem_pixels] at hp hp'
  omega

@[simp] theorem area_fillRect (r : Rect) (c : Color) : (fillRect r c).area = r.pixels :=
  Paint.area_fill ..

/-- A rectangle cleared and drawn into. -/
theorem area_cleared {q : Paint Pixel Color} {c : Color} (h : q.area ⊆ r.pixels) :
    ((fillRect r c).andThen q).area = r.pixels := by
  rw [Paint.area_andThen, area_fillRect, Set.union_eq_left.2 h]

/-! ## Text -/

def OneLine (text : List Char) : Prop := '\n' ∉ text ∧ '\r' ∉ text

instance (text : List Char) : Decidable (OneLine text) := inferInstanceAs (Decidable (_ ∧ _))

/-- Text on one line takes a cell of six by eight pixels for each octet at most, and is
drawn in its box while that fits the panel; a circle is drawn in its box. Of the size 0 the
driver makes 1. -/
structure TftLaws (T : Tft) : Prop where
  fontHeight_eq : ∀ size, 0 < size → T.fontHeight size = 8 * size
  textWidth_nonneg : ∀ size text, 0 ≤ T.textWidth size text
  textWidth_le : ∀ size text, 0 < size → OneLine text →
    T.textWidth size text ≤ 6 * size * text.length
  print_area : ∀ x y size text color background, 0 < size → OneLine text → 0 ≤ x →
    x + T.textWidth size text ≤ screenW →
      (T.print x y size text color background).area ⊆
        (Rect.mk x y (T.textWidth size text) (T.fontHeight size)).pixels
  circle_area : ∀ x y r color, 0 ≤ r →
    (T.fillCircle x y r color).area ⊆ (Rect.mk (x - r) (y - r) (2 * r + 1) (2 * r + 1)).pixels

theorem OneLine.append {a b : List Char} (ha : OneLine a) (hb : OneLine b) : OneLine (a ++ b) := by
  simp only [OneLine, List.mem_append, not_or]
  exact ⟨⟨ha.1, hb.1⟩, ha.2, hb.2⟩

theorem OneLine.subset {a b : List Char} (h : OneLine b) (hsub : a ⊆ b) : OneLine a :=
  ⟨fun hn => h.1 (hsub hn), fun hr => h.2 (hsub hr)⟩

theorem OneLine.take {a : List Char} (h : OneLine a) (n : Nat) : OneLine (a.take n) :=
  h.subset (List.take_subset n a)

theorem oneLine_decimal (n : Nat) : OneLine (decimal n) := by
  have hdigit : ∀ c ∈ decimal n, c.isDigit = true :=
    fun c hc => Nat.isDigit_of_mem_toDigits (by decide) (by decide) hc
  constructor
  · intro h
    exact absurd (hdigit _ h) (by decide)
  · intro h
    exact absurd (hdigit _ h) (by decide)

theorem oneLine_flatten {parts : List (List Char)} (h : ∀ part ∈ parts, OneLine part) :
    OneLine parts.flatten := by
  constructor
  · intro hn
    obtain ⟨part, hpart, hmem⟩ := List.mem_flatten.1 hn
    exact (h part hpart).1 hmem
  · intro hr
    obtain ⟨part, hpart, hmem⟩ := List.mem_flatten.1 hr
    exact (h part hpart).2 hmem

/-- A line that fits a page. -/
def Fits (n : Nat) (text : List Char) : Prop := OneLine text ∧ text.length ≤ n

theorem fits_line24 {parts : List (List Char)} (h : ∀ part ∈ parts, OneLine part) :
    Fits 23 (line24 parts) :=
  ⟨(oneLine_flatten h).take 23, List.length_take_le ..⟩

theorem length_truncated_le {n : Nat} {text : List Char} (hn : 0 < n) :
    (truncated n text).length ≤ n := by
  unfold truncated
  split
  · split
    · simp
      omega
    · exact List.length_take_le ..
  · omega

theorem OneLine.truncated {text : List Char} (h : OneLine text) (n : Nat) :
    OneLine (truncated n text) := by
  unfold LcdDashboard.truncated
  split
  · split
    · exact (h.take _).append (by decide)
    · exact h.take _
  · exact h

section text

variable {T : Tft}

/-- A text in a rectangle of the panel. -/
theorem TftLaws.print_within {x y : Int} {size : Nat} {text : List Char} {color background : Color}
    (laws : TftLaws T) (hsize : 0 < size) (hline : OneLine text) (hx : r.x ≤ x)
    (hw : x + T.textWidth size text ≤ r.x + r.w) (hy : r.y ≤ y) (hh : y + 8 * size ≤ r.y + r.h)
    (hpanel : 0 ≤ r.x ∧ r.x + r.w ≤ screenW) :
    (T.print x y size text color background).area ⊆ r.pixels := by
  refine (laws.print_area x y size text color background hsize hline (by omega) (by omega)).trans ?_
  refine Rect.Within.subset ⟨⟨hx, hw⟩, hy, ?_⟩
  show y + T.fontHeight size ≤ _
  rw [laws.fontHeight_eq size hsize]
  exact hh

/-- A line of text in a rectangle with room for `n` characters. -/
theorem TftLaws.textLine_within {x y : Int} {n : Nat} {text : List Char} {color : Color}
    (laws : TftLaws T) (hfits : Fits n text) (hbox : (Rect.mk x y (6 * n) 8).Within r)
    (hpanel : 0 ≤ r.x ∧ r.x + r.w ≤ screenW) : (drawTextLine T x y text color).area ⊆ r.pixels := by
  obtain ⟨hline, hlen⟩ := hfits
  obtain ⟨⟨hx, hw⟩, hy, hh⟩ := hbox
  have hwidth := laws.textWidth_le 1 text (by decide) hline
  dsimp only at hx hw hy hh
  exact laws.print_within (by decide) hline hx (by omega) hy (by omega) hpanel

/-! ## What each part covers -/

theorem area_drawState (laws : TftLaws T) {text : List Char} {color : Color} (h : Fits 26 text) :
    (drawState T text color).area = stateRect.pixels :=
  area_cleared (laws.textLine_within h (by decide) (by decide))

theorem area_drawPageIndicator (laws : TftLaws T) (page : Page) :
    (drawPageIndicator T page).area = pageIndicatorRect.pixels := by
  have hfits : Fits 4 ((decimal page.number ++ '/' :: decimal Page.kCount).take 7) := by
    constructor
    · cases page <;> decide
    · cases page <;> decide
  exact area_cleared (laws.textLine_within hfits (by decide) (by decide))

theorem area_drawMessage (laws : TftLaws T) {text : List Char} {color : Color} (h : Fits 21 text) :
    (State.drawMessage T text color).area = messageRect.pixels := by
  have hsub : cStr text ⊆ text := (List.takeWhile_sublist _).subset
  have hlen : (cStr text).length ≤ text.length := (List.takeWhile_sublist _).length_le
  have hfits : Fits 21 (cStr text) := ⟨h.1.subset hsub, hlen.trans h.2⟩
  exact area_cleared (laws.textLine_within hfits (by decide) (by decide))

theorem area_drawLines (laws : TftLaws T) {y : Int} {lines : List (List Char × Color)}
    (hlines : ∀ line ∈ lines, Fits 23 line.1) (hy : contentRect.y ≤ y)
    (hh : y + kTextLineHeight * lines.length ≤ contentRect.y + contentRect.h + 2) :
    (drawLines T y lines).area ⊆ contentRect.pixels := by
  induction lines generalizing y with
  | nil => simp [drawLines]
  | cons line lines ih =>
    have hheight : kTextLineHeight = 10 := rfl
    rw [List.length_cons, hheight] at hh
    rw [drawLines, Paint.area_andThen]
    refine Set.union_subset ?_ (ih (fun l hl => hlines l (List.mem_cons_of_mem _ hl)) ?_ ?_)
    · refine laws.textLine_within (hlines line List.mem_cons_self) ?_ (by decide)
      have hx : contentRect.x = 0 := by decide
      have hw : contentRect.w = 160 := by decide
      refine ⟨⟨?_, ?_⟩, hy, ?_⟩
      · show contentRect.x ≤ contentRect.x + 2
        omega
      · show contentRect.x + 2 + 6 * 23 ≤ contentRect.x + contentRect.w
        omega
      · show y + 8 ≤ contentRect.y + contentRect.h
        omega
    · omega
    · rw [hheight]
      omega

theorem area_drawPage (laws : TftLaws T) {lines : List (List Char × Color)}
    (hlines : ∀ line ∈ lines, Fits 23 line.1) (hlen : lines.length ≤ 5) :
    (drawPage T lines).area = contentRect.pixels := by
  have hroom : contentRect.y + 2 + 10 * 5 ≤ contentRect.y + contentRect.h + 2 := by decide
  refine area_cleared (area_drawLines laws hlines (by omega) ?_)
  rw [show kTextLineHeight = 10 from rfl]
  omega

/-- The label of a tile. -/
theorem area_drawLabel (laws : TftLaws T) {tile : Rect} {label : List Char} (h : Fits 5 label)
    (hbox : (Rect.mk (tile.x + 3) (tile.y + 2) (6 * 5) 8).Within contentRect) :
    (drawLabel T tile label).area ⊆ contentRect.pixels := by
  obtain ⟨hline, hlen⟩ := h
  obtain ⟨⟨hx, hw⟩, hy, hh⟩ := hbox
  have hwidth := laws.textWidth_le 1 label (by decide) hline
  dsimp only at hx hw hy hh
  exact laws.print_within (by decide) hline hx (by omega) hy (by omega) (by decide)

theorem area_drawActivityChrome (laws : TftLaws T) :
    (drawActivityChrome T).area ⊆ contentRect.pixels := by
  have hline : ∀ {x}, (Rect.mk x contentRect.y 1 contentRect.h).Within contentRect →
      (drawFastVLine x contentRect.y contentRect.h kRawGridLine).area ⊆ contentRect.pixels := by
    intro x h
    rw [drawFastVLine, area_fillRect]
    exact h.subset
  unfold drawActivityChrome
  simp only [Paint.area_andThen, Set.union_subset_iff]
  exact ⟨⟨⟨⟨hline (by decide), hline (by decide)⟩,
    area_drawLabel laws (by constructor <;> decide) (by decide)⟩,
    area_drawLabel laws (by constructor <;> decide) (by decide)⟩,
    area_drawLabel laws (by constructor <;> decide) (by decide)⟩

theorem area_drawActivityDot (laws : TftLaws T) {tile : Rect} {label : List Char} {color : Color} :
    (drawActivityDot T tile label color).area = (dotBox tile label).pixels := by
  have hradius : 0 ≤ dotRadius tile := Int.le_trans (by decide) (Int.le_max_left 2 _)
  refine area_cleared ((laws.circle_area _ _ _ _ hradius).trans (Rect.Within.subset ?_))
  unfold Rect.Within dotBox
  dsimp only
  omega

/-- The count of peers has room in its tile. -/
theorem fits_peersText {online total : Nat} (honline : online ≤ 4) (htotal : total ≤ 16) :
    Fits 4 (peersText online total) := by
  have hdigits : ∀ k ≤ 16, (decimal k).length ≤ 2 := by decide
  have hdigit : ∀ k ≤ 4, (decimal k).length ≤ 1 := by decide
  constructor
  · refine OneLine.take ((oneLine_decimal online).append ?_) _
    exact OneLine.append (a := ['/']) (by decide) (oneLine_decimal total)
  · have h1 := hdigit online honline
    have h2 := hdigits total htotal
    rw [peersText, List.length_take, List.length_append, List.length_cons]
    omega

theorem area_drawCenteredValue (laws : TftLaws T) {text : List Char} {color : Color}
    (h : Fits 4 text) :
    (drawCenteredValue T peersTile text color 2).area = (valueArea peersTile).pixels := by
  obtain ⟨hline, hlen⟩ := h
  have hnonneg := laws.textWidth_nonneg 2 text
  have hwidth := laws.textWidth_le 2 text (by decide) hline
  have hheight := laws.fontHeight_eq 2 (by decide)
  have harea : valueArea peersTile = ⟨107, 40, 52, 39⟩ := by decide
  unfold drawCenteredValue
  refine area_cleared ?_
  split
  · rw [Paint.area_nothing]
    exact Set.empty_subset _
  · rw [harea]
    dsimp only
    have hcx : (52 - T.textWidth 2 text).tdiv 2 = (52 - T.textWidth 2 text) / 2 :=
      Int.tdiv_eq_ediv_of_nonneg (by omega)
    have hcy : (39 - T.fontHeight 2).tdiv 2 = 11 := by
      rw [hheight]
      decide
    rw [hcx, hcy]
    refine laws.print_within (by decide) hline ?_ ?_ ?_ ?_ (by decide)
    all_goals dsimp only
    all_goals omega

end text

/-! ## A repaint from scratch -/

/-- What a page shows; a part is `none` until it is drawn. -/
inductive Content
  | activity (rx : Option Bool) (tx : Option (Bool × Bool × Bool)) (peers : Option (Nat × Nat))
  | text (lines : Option (List (List Char × Color)))

structure View where
  page : Page
  strip : List Char × Color
  message : Option (List Char × Color)
  content : Content

section repaint

variable (T : Tft)

def drawRx : Option Bool → Paint Pixel Color
  | none => .nothing
  | some hot => drawActivityDot T rxTile "RX".toList (rxColor hot)

def drawTx : Option (Bool × Bool × Bool) → Paint Pixel Color
  | none => .nothing
  | some (hot, hasResult, ok) => drawActivityDot T txTile "TX".toList (txColor hot hasResult ok)

def drawPeers : Option (Nat × Nat) → Paint Pixel Color
  | none => .nothing
  | some (online, total) =>
    drawCenteredValue T peersTile (peersText online total) (peersColor online total) 2

def drawContent : Content → Paint Pixel Color
  | .activity rx tx peers =>
    (fillRect contentRect kRawWhite).andThen ((drawActivityChrome T).andThen
      ((drawRx T rx).andThen ((drawTx T tx).andThen (drawPeers T peers))))
  | .text none => fillRect contentRect kRawWhite
  | .text (some lines) => drawPage T lines

def drawBanner : Option (List Char × Color) → Paint Pixel Color
  | none => fillRect messageRect kRawWhite
  | some (text, color) => State.drawMessage T text color

def fullRepaint (v : View) : Paint Pixel Color :=
  drawFrame.andThen ((drawState T v.strip.1 v.strip.2).andThen
    ((drawPageIndicator T v.page).andThen ((drawBanner T v.message).andThen (drawContent T v.content))))

end repaint

/-- There is room for what is to be shown. -/
def Content.Fits : Content → Prop
  | .activity _ _ peers => ∀ online total, peers = some (online, total) → online ≤ 4 ∧ total ≤ 16
  | .text lines => ∀ ls, lines = some ls →
      (∀ line ∈ ls, LcdDashboard.Fits 23 line.1) ∧ ls.length ≤ 5

structure View.Fits (v : View) : Prop where
  strip : LcdDashboard.Fits 26 v.strip.1
  message : ∀ text color, v.message = some (text, color) → LcdDashboard.Fits 21 text
  content : v.content.Fits

section parts

variable {T : Tft} (laws : TftLaws T)

include laws

theorem area_drawRx (rx : Option Bool) :
    (drawRx T rx).area ⊆ (dotBox rxTile "RX".toList).pixels := by
  cases rx with
  | none => simp [drawRx]
  | some hot => exact (area_drawActivityDot laws).subset

theorem area_drawTx (tx : Option (Bool × Bool × Bool)) :
    (drawTx T tx).area ⊆ (dotBox txTile "TX".toList).pixels := by
  cases tx with
  | none => simp [drawTx]
  | some result => exact (area_drawActivityDot laws).subset

theorem area_drawPeers {peers : Option (Nat × Nat)}
    (h : ∀ online total, peers = some (online, total) → online ≤ 4 ∧ total ≤ 16) :
    (drawPeers T peers).area ⊆ (valueArea peersTile).pixels := by
  cases peers with
  | none => simp [drawPeers]
  | some count =>
    obtain ⟨honline, htotal⟩ := h count.1 count.2 rfl
    exact (area_drawCenteredValue laws (fits_peersText honline htotal)).subset

theorem area_drawContent {c : Content} (h : c.Fits) : (drawContent T c).area = contentRect.pixels := by
  cases c with
  | activity rx tx peers =>
    have hrx : (dotBox rxTile "RX".toList).Within contentRect := by decide
    have htx : (dotBox txTile "TX".toList).Within contentRect := by decide
    have hpeers : (valueArea peersTile).Within contentRect := by decide
    refine area_cleared ?_
    simp only [Paint.area_andThen, Set.union_subset_iff]
    exact ⟨area_drawActivityChrome laws, (area_drawRx laws rx).trans hrx.subset,
      (area_drawTx laws tx).trans htx.subset, (area_drawPeers laws h).trans hpeers.subset⟩
  | text lines =>
    cases lines with
    | none => exact area_fillRect ..
    | some ls => exact area_drawPage laws (h ls rfl).1 (h ls rfl).2

theorem area_drawBanner {message : Option (List Char × Color)}
    (h : ∀ text color, message = some (text, color) → Fits 21 text) :
    (drawBanner T message).area = messageRect.pixels := by
  cases message with
  | none => exact area_fillRect ..
  | some shown => exact area_drawMessage laws (h shown.1 shown.2 rfl)

/-! A part painted anew. -/

variable {v : View}

theorem repaint_strip (hv : v.Fits) {strip : List Char × Color} (h : Fits 26 strip.1) :
    (fullRepaint T v).andThen (drawState T strip.1 strip.2) = fullRepaint T { v with strip } := by
  have hindicator : pageIndicatorRect.Apart stateRect := by decide
  have hbanner : messageRect.Apart stateRect := by decide
  have hcontent : contentRect.Apart stateRect := by decide
  unfold fullRepaint
  rw [Paint.andThen_assoc, Paint.andThen_replace]
  · rw [area_drawState laws hv.strip, area_drawState laws h]
  · simp only [Paint.area_andThen, Set.disjoint_union_left]
    rw [area_drawState laws h, area_drawPageIndicator laws, area_drawBanner laws hv.message,
      area_drawContent laws hv.content]
    exact ⟨hindicator.disjoint, hbanner.disjoint, hcontent.disjoint⟩

theorem repaint_indicator (hv : v.Fits) (page : Page) :
    (fullRepaint T v).andThen (drawPageIndicator T page) = fullRepaint T { v with page } := by
  have hbanner : messageRect.Apart pageIndicatorRect := by decide
  have hcontent : contentRect.Apart pageIndicatorRect := by decide
  unfold fullRepaint
  rw [Paint.andThen_assoc, Paint.andThen_assoc, Paint.andThen_replace]
  · rw [area_drawPageIndicator laws, area_drawPageIndicator laws]
  · simp only [Paint.area_andThen, Set.disjoint_union_left]
    rw [area_drawPageIndicator laws, area_drawBanner laws hv.message,
      area_drawContent laws hv.content]
    exact ⟨hbanner.disjoint, hcontent.disjoint⟩

theorem repaint_banner (hv : v.Fits) {message : Option (List Char × Color)}
    (h : ∀ text color, message = some (text, color) → Fits 21 text) :
    (fullRepaint T v).andThen (drawBanner T message) = fullRepaint T { v with message } := by
  have hcontent : contentRect.Apart messageRect := by decide
  unfold fullRepaint
  rw [Paint.andThen_assoc, Paint.andThen_assoc, Paint.andThen_assoc, Paint.andThen_replace]
  · rw [area_drawBanner laws hv.message, area_drawBanner laws h]
  · rw [area_drawBanner laws h, area_drawContent laws hv.content]
    exact hcontent.disjoint

omit laws in
theorem repaint_content {p : Paint Pixel Color} {content : Content}
    (h : (drawContent T v.content).andThen p = drawContent T content) :
    (fullRepaint T v).andThen p = fullRepaint T { v with content } := by
  unfold fullRepaint
  rw [Paint.andThen_assoc, Paint.andThen_assoc, Paint.andThen_assoc, Paint.andThen_assoc, h]

theorem content_blank {c : Content} (h : c.Fits) :
    (drawContent T c).andThen (fillRect contentRect kRawWhite) = drawContent T (.text none) := by
  rw [Paint.andThen_absorb]
  · rfl
  · rw [area_drawContent laws h, area_fillRect]

theorem content_page {c : Content} (h : c.Fits) {lines : List (List Char × Color)}
    (hlines : ∀ line ∈ lines, Fits 23 line.1) (hlen : lines.length ≤ 5) :
    (drawContent T c).andThen (drawPage T lines) = drawContent T (.text (some lines)) := by
  rw [Paint.andThen_absorb]
  · rfl
  · rw [area_drawContent laws h, area_drawPage laws hlines hlen]

omit laws in
theorem content_chrome :
    (drawContent T (.text none)).andThen (drawActivityChrome T) =
      drawContent T (.activity none none none) := rfl

theorem content_rx (rx : Option Bool) (tx : Option (Bool × Bool × Bool))
    {peers : Option (Nat × Nat)} (h : Content.Fits (.activity rx tx peers)) (hot : Bool) :
    (drawContent T (.activity rx tx peers)).andThen (drawRx T (some hot)) =
      drawContent T (.activity (some hot) tx peers) := by
  have htx : (dotBox txTile "TX".toList).Apart (dotBox rxTile "RX".toList) := by decide
  have hpeers : (valueArea peersTile).Apart (dotBox rxTile "RX".toList) := by decide
  have hown : (drawRx T (some hot)).area = (dotBox rxTile "RX".toList).pixels :=
    area_drawActivityDot laws
  unfold drawContent
  rw [Paint.andThen_assoc, Paint.andThen_assoc, Paint.andThen_replace]
  · rw [hown]
    exact area_drawRx laws rx
  · rw [hown, Paint.area_andThen, Set.disjoint_union_left]
    exact ⟨htx.disjoint.mono_left (area_drawTx laws tx),
      hpeers.disjoint.mono_left (area_drawPeers laws h)⟩

theorem content_tx (rx : Option Bool) (tx : Option (Bool × Bool × Bool))
    {peers : Option (Nat × Nat)} (h : Content.Fits (.activity rx tx peers))
    (live : Bool × Bool × Bool) :
    (drawContent T (.activity rx tx peers)).andThen (drawTx T (some live)) =
      drawContent T (.activity rx (some live) peers) := by
  have hpeers : (valueArea peersTile).Apart (dotBox txTile "TX".toList) := by decide
  have hown : (drawTx T (some live)).area = (dotBox txTile "TX".toList).pixels :=
    area_drawActivityDot laws
  unfold drawContent
  rw [Paint.andThen_assoc, Paint.andThen_assoc, Paint.andThen_assoc, Paint.andThen_replace]
  · rw [hown]
    exact area_drawTx laws tx
  · rw [hown]
    exact hpeers.disjoint.mono_left (area_drawPeers laws h)

theorem content_peers (rx : Option Bool) (tx : Option (Bool × Bool × Bool))
    {peers : Option (Nat × Nat)} (h : Content.Fits (.activity rx tx peers)) {online total : Nat}
    (honline : online ≤ 4) (htotal : total ≤ 16) :
    (drawContent T (.activity rx tx peers)).andThen (drawPeers T (some (online, total))) =
      drawContent T (.activity rx tx (some (online, total))) := by
  have hown : (drawPeers T (some (online, total))).area = (valueArea peersTile).pixels :=
    area_drawCenteredValue laws (fits_peersText honline htotal)
  have hover : (drawPeers T peers).andThen (drawPeers T (some (online, total))) =
      drawPeers T (some (online, total)) := by
    rw [Paint.andThen_absorb]
    rw [hown]
    exact area_drawPeers laws h
  unfold drawContent
  rw [Paint.andThen_assoc, Paint.andThen_assoc, Paint.andThen_assoc, Paint.andThen_assoc, hover]

omit laws in
/-- The frame leaves a part away from its lines white. -/
theorem frame_white (hbar : r.Apart ⟨0, kBarHeight, screenW, 1⟩)
    (hstrip : r.Apart ⟨0, stateRect.y + stateRect.h, screenW, 1⟩) :
    drawFrame.andThen (fillRect r kRawWhite) = drawFrame := by
  refine Paint.andThen_same fun x hx => ?_
  have hwhite : fillRect r kRawWhite x = some kRawWhite := by
    rw [area_fillRect] at hx
    exact if_pos hx
  rw [area_fillRect] at hx
  have hline : ∀ {line : Rect}, r.Apart line → fillRect line kRawGridLine x = none := by
    intro line hapart
    rw [← Paint.notMem_area, area_fillRect]
    exact fun hmem => hapart.disjoint.le_bot ⟨hx, hmem⟩
  rw [hwhite]
  simp only [drawFrame, drawFastHLine, Paint.andThen, hline hbar, hline hstrip, Option.none_or]
  rfl

/-- What `begin` and `clear` draw is a repaint without a message. -/
theorem repaint_cleared {strip : List Char × Color} (hstrip : Fits 26 strip.1) (page : Page)
    {p : Paint Pixel Color} (hp : p.area ⊆ contentRect.pixels) {content : Content}
    (hcontent : drawContent T content = (fillRect contentRect kRawWhite).andThen p) :
    ((drawFrame.andThen (drawState T strip.1 strip.2)).andThen p).andThen (drawPageIndicator T page) =
      fullRepaint T { page, strip, message := none, content } := by
  have hbannerStrip : messageRect.Apart stateRect := by decide
  have hbannerIndicator : messageRect.Apart pageIndicatorRect := by decide
  have hcontentStrip : contentRect.Apart stateRect := by decide
  have hcontentIndicator : contentRect.Apart pageIndicatorRect := by decide
  have hpage : p.andThen (drawPageIndicator T page) = (drawPageIndicator T page).andThen p := by
    refine Paint.andThen_comm ?_
    rw [area_drawPageIndicator laws]
    exact hcontentIndicator.disjoint.mono_left hp
  -- what is white already commutes to the frame
  have hback : ∀ {r : Rect} {q : Paint Pixel Color}, r.Apart stateRect → r.Apart pageIndicatorRect →
      r.Apart ⟨0, kBarHeight, screenW, 1⟩ →
      r.Apart ⟨0, stateRect.y + stateRect.h, screenW, 1⟩ →
      drawFrame.andThen ((drawState T strip.1 strip.2).andThen
          ((drawPageIndicator T page).andThen ((fillRect r kRawWhite).andThen q))) =
        drawFrame.andThen ((drawState T strip.1 strip.2).andThen
          ((drawPageIndicator T page).andThen q)) := by
    intro r q hstate hind hbar hline
    have hcomm : (drawPageIndicator T page).andThen (fillRect r kRawWhite) =
        (fillRect r kRawWhite).andThen (drawPageIndicator T page) := by
      refine Paint.andThen_comm ?_
      rw [area_drawPageIndicator laws, area_fillRect]
      exact hind.disjoint.symm
    have hcomm' : (drawState T strip.1 strip.2).andThen (fillRect r kRawWhite) =
        (fillRect r kRawWhite).andThen (drawState T strip.1 strip.2) := by
      refine Paint.andThen_comm ?_
      rw [area_drawState laws hstrip, area_fillRect]
      exact hstate.disjoint.symm
    rw [← Paint.andThen_assoc (drawPageIndicator T page), hcomm, Paint.andThen_assoc,
      ← Paint.andThen_assoc (drawState T strip.1 strip.2), hcomm', Paint.andThen_assoc,
      ← Paint.andThen_assoc drawFrame, frame_white hbar hline]
  unfold fullRepaint
  dsimp only
  rw [hcontent, Paint.andThen_assoc, Paint.andThen_assoc, hpage, drawBanner,
    hback hbannerStrip hbannerIndicator (by decide) (by decide),
    hback hcontentStrip hcontentIndicator (by decide) (by decide)]

end parts

end BallyDongle.LcdDashboard
