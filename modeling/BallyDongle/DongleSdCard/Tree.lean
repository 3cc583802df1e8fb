import BallyDongle.DongleSdCard

/-!
# What a removal leaves

`removeTree` takes off what lies below its path, all of it when it returns true and part
of it when it does not, and leaves the card a directory tree whatever calls fail.
-/

namespace BallyDongle.DongleSdCard

open PathTree

/-- What is left when `removeTree path` has returned `ok`. -/
structure Removed (path : Path) (card card' : Card) (ok : Bool) : Prop where
  tree : IsTree card'
  kept : card'.eraseBelow path = card.eraseBelow path
  sublist : card'.Sublist card
  gone : ok = true → card' = card.eraseBelow path

/-- No entry has a name the loops skip. -/
def Named (card : Card) : Prop :=
  ∀ name path, name :: path ∈ card.map Prod.fst → name ≠ ".".toList ∧ name ≠ "..".toList

section

variable {f : Faults} {card card' : Card} {path : Path} {ok : Bool}

theorem unlink_removed (h : IsTree card) {fails : Bool} (hunlink : unlink card fails path = (ok, card')) :
    Removed path card card' ok := by
  unfold unlink at hunlink
  split at hunlink
  · cases hunlink
    exact ⟨h, rfl, List.Sublist.refl _, fun htrue => by cases htrue⟩
  · rename_i hcan
    simp only [not_or, not_not] at hcan
    cases hunlink
    rw [h.erase_eq hcan.2.2.2]
    exact ⟨h.eraseBelow path, eraseBelow_eraseBelow (List.suffix_refl path),
      eraseBelow_sublist card path, fun _ => rfl⟩

/-- What is left when a directory has been gone through. -/
structure Swept (path : Path) (card card' : Card) : Prop where
  tree : IsTree card'
  kept : card'.eraseBelow path = card.eraseBelow path
  sublist : card'.Sublist card

theorem Removed.swept {name : Name} (h : Removed (name :: path) card card' ok) :
    Swept path card card' := by
  refine ⟨h.tree, ?_, h.sublist⟩
  have hbelow : path <:+ name :: path := List.suffix_cons name path
  rw [← eraseBelow_eraseBelow hbelow, h.kept, eraseBelow_eraseBelow hbelow]

theorem Swept.trans {card'' : Card} (h : Swept path card card') (h' : Swept path card' card'') :
    Swept path card card'' :=
  ⟨h'.tree, h'.kept.trans h.kept, h'.sublist.trans h.sublist⟩

/-- `rec` removes as `removeTree` does. -/
def Removes (rec : Path → Card → Option (Bool × Card)) : Prop :=
  ∀ path card ok card', IsTree card → rec path card = some (ok, card') → Removed path card card' ok

section loop

variable {rec : Path → Card → Option (Bool × Card)} {rest : List Name} {count : Nat}

theorem removeEntries_swept (hrec : Removes rec) (h : IsTree card)
    (hloop : removeEntries f rec path rest count card = some (ok, card')) :
    Swept path card card' := by
  induction rest generalizing count card with
  | nil =>
    cases hloop
    exact ⟨h, rfl, List.Sublist.refl _⟩
  | cons name rest ih =>
    unfold removeEntries at hloop
    split at hloop
    · cases hloop
      exact ⟨h, rfl, List.Sublist.refl _⟩
    · split at hloop
      · exact ih h hloop
      · split at hloop
        · cases hloop
        · rename_i mid hmid
          have hname := (hrec _ _ _ _ h hmid).swept
          exact hname.trans (ih hname.tree hloop)
        · rename_i mid hmid
          cases hloop
          exact (hrec _ _ _ _ h hmid).swept

/-- A directory read to its end has lost the names that were read. -/
theorem removeEntries_gone (hrec : Removes rec) (h : IsTree card)
    (hreaddir : ∀ k, f.readdir path k = false)
    (hnames : ∀ name ∈ rest, name ≠ ".".toList ∧ name ≠ "..".toList)
    (hloop : removeEntries f rec path rest count card = some (true, card')) :
    ∀ name ∈ rest, name :: path ∉ card'.map Prod.fst := by
  induction rest generalizing count card with
  | nil =>
    intro name hname
    cases hname
  | cons name rest ih =>
    rw [List.forall_mem_cons] at hnames
    unfold removeEntries at hloop
    rw [if_neg (by rw [hreaddir]; decide), if_neg (not_or.2 hnames.1)] at hloop
    split at hloop
    · cases hloop
    · rename_i mid hmid
      have hname := hrec _ _ _ _ h hmid
      have hrest := removeEntries_swept hrec hname.tree hloop
      rw [List.forall_mem_cons]
      refine ⟨fun hmem => ?_, ih hname.tree hnames.2 hloop⟩
      have hmid' := (hrest.sublist.map Prod.fst).subset hmem
      rw [hname.gone rfl] at hmid'
      exact notMem_eraseBelow card (name :: path) hmid'
    · cases hloop

/-- The loop ends where `rec` does. -/
theorem removeEntries_ends {P : Card → Prop} (count : Nat) (h : P card)
    (hrec : ∀ name ∈ rest, ∀ card, P card → ∃ ok card', rec (name :: path) card = some (ok, card') ∧ P card') :
    ∃ ok card', removeEntries f rec path rest count card = some (ok, card') := by
  induction rest generalizing count card with
  | nil => exact ⟨true, card, rfl⟩
  | cons name rest ih =>
    rw [List.forall_mem_cons] at hrec
    unfold removeEntries
    split
    · exact ⟨true, card, rfl⟩
    · split
      · exact ih _ h hrec.2
      · obtain ⟨ok, mid, hmid, hP⟩ := hrec.1 card h
        rw [hmid]
        cases ok with
        | true => exact ih _ hP hrec.2
        | false => exact ⟨false, mid, rfl⟩

end loop

theorem removeTree_removes (f : Faults) (depth : Nat) : Removes (removeTree f depth) := by
  induction depth with
  | zero =>
    intro path card ok card' _ hremove
    cases hremove
  | succ depth ih =>
    intro path card ok card' h hremove
    unfold removeTree at hremove
    split at hremove
    · cases hremove
      exact ⟨h, rfl, List.Sublist.refl _, fun htrue => by cases htrue⟩
    · exact unlink_removed h (Option.some.inj hremove)
    · split at hremove
      · cases hremove
        exact ⟨h, rfl, List.Sublist.refl _, fun htrue => by cases htrue⟩
      · split at hremove
        · cases hremove
        · rename_i mid hloop
          have hswept := removeEntries_swept ih h hloop
          have hunlink := unlink_removed hswept.tree (Option.some.inj hremove)
          refine ⟨hunlink.tree, hunlink.kept.trans hswept.kept,
            hunlink.sublist.trans hswept.sublist, fun htrue => ?_⟩
          rw [hunlink.gone htrue, hswept.kept]
        · rename_i mid hloop
          have hswept := removeEntries_swept ih h hloop
          cases hremove
          exact ⟨hswept.tree, hswept.kept, hswept.sublist, fun htrue => by cases htrue⟩

/-- No path on the card goes `depth` names past `path`. -/
def Shallow (path : Path) (depth : Nat) (card : Card) : Prop :=
  ∀ e ∈ card, e.1.length < path.length + depth

theorem removeTree_ends (f : Faults) {depth : Nat} (hdepth : 0 < depth) (h : IsTree card)
    (hshallow : Shallow path depth card) :
    ∃ ok card', removeTree f depth path card = some (ok, card') := by
  induction depth generalizing path card with
  | zero => omega
  | succ depth ih =>
    unfold removeTree
    split
    · exact ⟨_, _, rfl⟩
    · exact ⟨_, _, rfl⟩
    · split
      · exact ⟨_, _, rfl⟩
      · have hchild : ∀ name ∈ card.names path, ∀ c, IsTree c ∧ Shallow path (depth + 1) c →
            ∃ ok c', removeTree f depth (name :: path) c = some (ok, c') ∧
              IsTree c' ∧ Shallow path (depth + 1) c' := by
          intro name hname c hc
          obtain ⟨node, hnode⟩ := mem_paths.1 (mem_names.1 hname)
          have hlen : path.length + 1 < path.length + (depth + 1) := by
            simpa using hshallow _ hnode
          have hdeeper : Shallow (name :: path) depth c := by
            intro e he
            have hlt := hc.2 e he
            rw [List.length_cons]
            omega
          obtain ⟨ok, c', hc'⟩ := ih (by omega) hc.1 hdeeper
          have hremoved := removeTree_removes f depth _ _ _ _ hc.1 hc'
          exact ⟨ok, c', hc', hremoved.tree, fun e he => hc.2 e (hremoved.sublist.subset he)⟩
        obtain ⟨ok, mid, hloop⟩ := removeEntries_ends (f := f) 0 ⟨h, hshallow⟩ hchild
        rw [hloop]
        cases ok with
        | true => exact ⟨_, _, rfl⟩
        | false => exact ⟨_, _, rfl⟩

/-! ## Without failures -/

/-- No call about `path` or what is below fails. -/
structure Faults.Fine (f : Faults) (path : Path) : Prop where
  stat : ∀ q, path <:+ q → f.stat q = false
  opendir : ∀ q, path <:+ q → f.opendir q = false
  readdir : ∀ q k, path <:+ q → f.readdir q k = false
  remove : ∀ q, path <:+ q → f.remove q = false
  rmdir : ∀ q, path <:+ q → f.rmdir q = false

theorem Faults.Fine.child (h : f.Fine path) (name : Name) : f.Fine (name :: path) := by
  have hbelow : path <:+ name :: path := List.suffix_cons name path
  constructor
  · exact fun q hq => h.stat q (hbelow.trans hq)
  · exact fun q hq => h.opendir q (hbelow.trans hq)
  · exact fun q k hq => h.readdir q k (hbelow.trans hq)
  · exact fun q hq => h.remove q (hbelow.trans hq)
  · exact fun q hq => h.rmdir q (hbelow.trans hq)

/-- A sibling stays when `name` goes. -/
theorem mem_eraseBelow_sibling {name name' : Name} (hne : name' ≠ name)
    (h : name' :: path ∈ card.map Prod.fst) :
    name' :: path ∈ (card.eraseBelow (name :: path)).map Prod.fst := by
  obtain ⟨node, hnode⟩ := mem_paths.1 h
  refine mem_paths.2 ⟨node, mem_eraseBelow.2 ⟨hnode, fun hbelow => hne ?_⟩⟩
  have heq := hbelow.eq_of_length rfl
  exact (List.cons.inj heq).1.symm

theorem mem_eraseBelow_child {name : Name} (h : path ∈ card.map Prod.fst) :
    path ∈ (card.eraseBelow (name :: path)).map Prod.fst := by
  obtain ⟨node, hnode⟩ := mem_paths.1 h
  refine mem_paths.2 ⟨node, mem_eraseBelow.2 ⟨hnode, fun hbelow => ?_⟩⟩
  have hlen : (name :: path).length ≤ path.length := hbelow.length_le
  rw [List.length_cons] at hlen
  omega

theorem removeEntries_ok {rec : Path → Card → Option (Bool × Card)} {rest : List Name}
    {P : Card → Prop} (count : Nat) (h : P card) (hreaddir : ∀ k, f.readdir path k = false)
    (hnames : ∀ name ∈ rest, name ≠ ".".toList ∧ name ≠ "..".toList) (hnodup : rest.Nodup)
    (hin : ∀ name ∈ rest, name :: path ∈ card.map Prod.fst)
    (hrec : ∀ name ∈ rest, ∀ card, P card → name :: path ∈ card.map Prod.fst →
      rec (name :: path) card = some (true, card.eraseBelow (name :: path)) ∧
        P (card.eraseBelow (name :: path))) :
    ∃ card', removeEntries f rec path rest count card = some (true, card') ∧ P card' := by
  induction rest generalizing count card with
  | nil => exact ⟨card, rfl, h⟩
  | cons name rest ih =>
    rw [List.forall_mem_cons] at hnames hin hrec
    rw [List.nodup_cons] at hnodup
    obtain ⟨hmid, hP⟩ := hrec.1 card h hin.1
    unfold removeEntries
    rw [if_neg (by rw [hreaddir]; decide), if_neg (not_or.2 hnames.1), hmid]
    refine ih _ hP hnames.2 hnodup.2 (fun name' hname' => ?_) hrec.2
    have hne : name' ≠ name := by
      rintro rfl
      exact hnodup.1 hname'
    exact mem_eraseBelow_sibling hne (hin.2 name' hname')

theorem unlink_ok (hpath : path ≠ []) (hlook : card.look path ≠ none) (hleaf : card.names path = []) :
    unlink card false path = (true, card.erase path) := by
  unfold unlink
  simp [hpath, hlook, hleaf]

/-- What the removal of a tree needs to succeed. -/
structure Ready (path : Path) (depth : Nat) (card : Card) : Prop where
  tree : IsTree card
  named : Named card
  shallow : Shallow path depth card
  listed : path ∈ card.map Prod.fst

theorem Ready.eraseChild {depth : Nat} (h : Ready path depth card) (name : Name) :
    Ready path depth (card.eraseBelow (name :: path)) where
  tree := h.tree.eraseBelow _
  named n q hmem := h.named n q (((eraseBelow_sublist card _).map Prod.fst).subset hmem)
  shallow e he := h.shallow e ((eraseBelow_sublist card _).subset he)
  listed := mem_eraseBelow_child h.listed

theorem removeTree_ok {depth : Nat} (hfine : f.Fine path) (h : Ready path depth card)
    (hpath : path ≠ []) : removeTree f depth path card = some (true, card.eraseBelow path) := by
  induction depth generalizing path card with
  | zero =>
    obtain ⟨node, hnode⟩ := mem_paths.1 h.listed
    have hlt : path.length < path.length + 0 := h.shallow _ hnode
    omega
  | succ depth ih =>
    obtain ⟨node, hnode⟩ := mem_paths.1 h.listed
    have hlook := look_of_mem hpath h.tree.nodup hnode
    have hself : path <:+ path := List.suffix_refl path
    unfold removeTree stat
    rw [if_neg (by rw [hfine.stat path hself]; decide), hlook]
    cases node with
    | file content =>
      have hleaf := h.tree.names_file hlook
      dsimp only
      rw [hfine.remove path hself, unlink_ok hpath (by rw [hlook]; exact Option.some_ne_none _) hleaf,
        h.tree.erase_eq hleaf]
    | dir =>
      have hstart : ∀ name ∈ card.names path, name :: path ∈ card.map Prod.fst :=
        fun name hname => mem_names.1 hname
      have hchild : ∀ name ∈ card.names path, ∀ c, Ready path (depth + 1) c →
          name :: path ∈ c.map Prod.fst →
          removeTree f depth (name :: path) c = some (true, c.eraseBelow (name :: path)) ∧
            Ready path (depth + 1) (c.eraseBelow (name :: path)) := by
        intro name _ c hc hmem
        have hdeeper : Ready (name :: path) depth c := by
          refine ⟨hc.tree, hc.named, fun e he => ?_, hmem⟩
          have hlt := hc.shallow e he
          rw [List.length_cons]
          omega
        exact ⟨ih (hfine.child name) hdeeper (List.cons_ne_nil name path), hc.eraseChild name⟩
      have hnames : ∀ name ∈ card.names path, name ≠ ".".toList ∧ name ≠ "..".toList :=
        fun name hname => h.named name path (hstart name hname)
      obtain ⟨mid, hloop, hmid⟩ := removeEntries_ok (f := f) 0 h
        (fun k => hfine.readdir path k hself) hnames (names_nodup h.tree.nodup) hstart hchild
      have hswept := removeEntries_swept (removeTree_removes f depth) h.tree hloop
      have hgone := removeEntries_gone (removeTree_removes f depth) h.tree
        (fun k => hfine.readdir path k hself) hnames hloop
      have hleaf : mid.names path = [] := by
        rw [List.eq_nil_iff_forall_not_mem]
        intro name hname
        have hmem := mem_names.1 hname
        exact hgone name (mem_names.2 ((hswept.sublist.map Prod.fst).subset hmem)) hmem
      have hdir : mid.look path ≠ none := by
        obtain ⟨node', hnode'⟩ := mem_paths.1 hmid.listed
        rw [look_of_mem hpath hmid.tree.nodup hnode']
        exact Option.some_ne_none _
      dsimp only
      rw [if_neg (by rw [hfine.opendir path hself]; decide), hloop]
      dsimp only
      rw [hfine.rmdir path hself, unlink_ok hpath hdir hleaf, hmid.tree.erase_eq hleaf, hswept.kept]

/-- `removeTree` returns; with true, what lies below its path is gone and everything else as it
was; with false, some of what lies below may be left, in a directory tree still. It returns true
when there is something to remove and no call fails. -/
theorem removeTree_spec (f : Faults) {depth : Nat} (path : Path) (card : Card) (h : IsTree card)
    (hdepth : 0 < depth) (hshallow : Shallow path depth card) :
    ∃ ok card', removeTree f depth path card = some (ok, card') ∧ Removed path card card' ok ∧
      (f.Fine path → Named card → path ≠ [] → path ∈ card.map Prod.fst → ok = true) := by
  obtain ⟨ok, card', hremove⟩ := removeTree_ends f hdepth h hshallow
  refine ⟨ok, card', hremove, removeTree_removes f depth _ _ _ _ h hremove, ?_⟩
  intro hfine hnamed hpath hlisted
  rw [removeTree_ok hfine ⟨h, hnamed, hshallow, hlisted⟩ hpath] at hremove
  cases hremove
  rfl

end

/-- A full directory beside a file, which a failing `remove` leaves in part. -/
def sampleCard : Card :=
  [(["a".toList], .dir), (["b".toList, "a".toList], .dir),
    (["c".toList, "b".toList, "a".toList], .file "1".toList), (["d".toList, "a".toList], .file []),
    (["ab".toList], .file "2".toList)]

theorem sampleCard_isTree : IsTree sampleCard where
  nodup := by decide
  root := by decide
  parent := by
    intro n p hmem
    simp only [sampleCard, List.map_cons, List.map_nil, List.mem_cons, List.cons.injEq,
      List.not_mem_nil, or_false] at hmem
    rcases hmem with ⟨-, rfl⟩ | ⟨-, rfl⟩ | ⟨-, rfl⟩ | ⟨-, rfl⟩ | ⟨-, rfl⟩ <;> decide

theorem sampleCard_named : Named sampleCard := by
  intro name path hmem
  simp only [sampleCard, List.map_cons, List.map_nil, List.mem_cons, List.cons.injEq,
    List.not_mem_nil, or_false] at hmem
  rcases hmem with ⟨rfl, -⟩ | ⟨rfl, -⟩ | ⟨rfl, -⟩ | ⟨rfl, -⟩ | ⟨rfl, -⟩ <;> decide

theorem removeTree_spec_sample :
    ∃ card', removeTree {} 4 ["a".toList] sampleCard = some (true, card') ∧
      Removed ["a".toList] sampleCard card' true := by
  obtain ⟨ok, card', hremove, hremoved, hok⟩ := removeTree_spec {} ["a".toList] sampleCard
    sampleCard_isTree (Nat.succ_pos 3) (by unfold Shallow; decide)
  have htrue := hok (by constructor <;> simp) sampleCard_named (by decide) (by decide)
  rw [htrue] at hremove hremoved
  exact ⟨card', hremove, hremoved⟩

/-! ## The whole card -/

theorem length_lt_height {card : Card} {e : Path × Node (List Char)} (h : e ∈ card) :
    e.1.length < height card := by
  have hle : ∀ (l : List Nat) (m n : Nat), n ≤ m ∨ n ∈ l → n ≤ l.foldl max m := by
    intro l
    induction l with
    | nil =>
      intro m n hn
      simpa using hn
    | cons a l ih =>
      intro m n hn
      rw [List.foldl_cons]
      refine ih (max m a) n ?_
      rw [List.mem_cons] at hn
      rcases hn with hm | ha | hl
      · exact .inl (by omega)
      · exact .inl (by omega)
      · exact .inr hl
  have hmem : e.1.length ∈ card.map fun e => e.1.length := List.mem_map_of_mem h
  have hfold := hle _ 0 _ (.inr hmem)
  unfold height
  omega

theorem eq_nil_of_names {card : Card} (h : IsTree card) (hnames : card.names [] = []) : card = [] := by
  rw [List.eq_nil_iff_forall_not_mem]
  intro e he
  have hin : e.1 ∈ card.map Prod.fst := List.mem_map_of_mem he
  have hne : e.1 ≠ [] := fun hroot => h.root (hroot ▸ hin)
  obtain ⟨n, hn, -⟩ := h.exists_name hin (List.nil_suffix) hne
  rw [hnames] at hn
  cases hn

/-- What wiping a card leaves of it. -/
structure Wiped (f : Faults) (sd sd' : Sd) (ok : Bool) : Prop where
  tree : IsTree sd'.card
  sublist : sd'.card.Sublist sd.card
  mount : sd' = { sd with card := sd'.card }
  empty : ok = true → (∀ k, f.readdir [] k = false) → sd'.card = []
  fine : sd.ready = true → f.Fine [] → ok = true

theorem wipeContents_wiped (f : Faults) {sd : Sd} (h : IsTree sd.card) (hnamed : Named sd.card) :
    ∃ ok sd', sd.wipeContents f = some (ok, sd') ∧ Wiped f sd sd' ok := by
  have hnames : ∀ name ∈ sd.card.names [], name ≠ ".".toList ∧ name ≠ "..".toList :=
    fun name hname => hnamed name [] (mem_names.1 hname)
  have hstart : Shallow [] (height sd.card + 1) sd.card := by
    intro e he
    have hlt := length_lt_height he
    rw [List.length_nil]
    omega
  have hdeeper : ∀ {c : Card} (name : Name), Shallow [] (height sd.card + 1) c →
      Shallow [name] (height sd.card) c := by
    intro c name hc e he
    have hlt := hc e he
    rw [List.length_nil] at hlt
    rw [List.length_singleton]
    omega
  have hpos : 0 < height sd.card := Nat.succ_pos _
  unfold Sd.wipeContents
  split
  · rename_i hready
    refine ⟨false, sd, rfl, h, List.Sublist.refl _, rfl, fun htrue => (by cases htrue), fun hmounted => ?_⟩
    rw [hmounted] at hready
    cases hready
  · split
    · rename_i hopen
      refine ⟨false, sd, rfl, h, List.Sublist.refl _, rfl, fun htrue => (by cases htrue), fun _ hfine => ?_⟩
      rw [hfine.opendir [] (List.suffix_refl _)] at hopen
      cases hopen
    · have hends : ∀ name ∈ sd.card.names [], ∀ c, IsTree c ∧ Shallow [] (height sd.card + 1) c →
          ∃ ok c', removeTree f (height sd.card) [name] c = some (ok, c') ∧
            IsTree c' ∧ Shallow [] (height sd.card + 1) c' := by
        intro name _ c hc
        obtain ⟨ok, c', hc'⟩ := removeTree_ends f hpos hc.1 (hdeeper name hc.2)
        have hremoved := removeTree_removes f _ _ _ _ _ hc.1 hc'
        exact ⟨ok, c', hc', hremoved.tree, fun e he => hc.2 e (hremoved.sublist.subset he)⟩
      obtain ⟨ok, card', hloop⟩ := removeEntries_ends (f := f) 0 ⟨h, hstart⟩ hends
      have hswept := removeEntries_swept (removeTree_removes f _) h hloop
      rw [hloop]
      refine ⟨ok, { sd with card := card' }, rfl, hswept.tree, hswept.sublist, rfl, ?_, ?_⟩
      · rintro rfl hreaddir
        have hgone := removeEntries_gone (removeTree_removes f _) h hreaddir hnames hloop
        refine eq_nil_of_names hswept.tree ?_
        rw [List.eq_nil_iff_forall_not_mem]
        intro name hname
        have hmem := mem_names.1 hname
        exact hgone name (mem_names.2 ((hswept.sublist.map Prod.fst).subset hmem)) hmem
      · intro _ hfine
        have hchild : ∀ name ∈ sd.card.names [], ∀ c,
            (IsTree c ∧ Named c ∧ Shallow [] (height sd.card + 1) c) → [name] ∈ c.map Prod.fst →
            removeTree f (height sd.card) [name] c = some (true, c.eraseBelow [name]) ∧
              IsTree (c.eraseBelow [name]) ∧ Named (c.eraseBelow [name]) ∧
              Shallow [] (height sd.card + 1) (c.eraseBelow [name]) := by
          intro name _ c hc hmem
          have hsub := eraseBelow_sublist c [name]
          refine ⟨removeTree_ok (hfine.child name) ⟨hc.1, hc.2.1, hdeeper name hc.2.2, hmem⟩
            (List.cons_ne_nil name []), hc.1.eraseBelow _, ?_, fun e he => hc.2.2 e (hsub.subset he)⟩
          exact fun n q hin => hc.2.1 n q ((hsub.map Prod.fst).subset hin)
        obtain ⟨card'', hall, -⟩ := removeEntries_ok (f := f) 0
          ⟨h, hnamed, hstart⟩
          (fun k => hfine.readdir [] k (List.suffix_refl _)) hnames (names_nodup h.nodup)
          (fun name hname => mem_names.1 hname) hchild
        rw [hloop] at hall
        cases hall
        rfl

end BallyDongle.DongleSdCard
