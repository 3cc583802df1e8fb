import Mathlib.Data.List.Infix
import Mathlib.Data.List.Nodup

/-!
# Trees listed by path

A directory tree as the list of its entries, each under its path. A path is its names,
the innermost first, and the root has the empty path and no entry. `IsTree` says that no path
is listed twice and that the parent of every entry is a directory. Taking off all that
lies below a path, or an entry without children, keeps it.
-/

universe u v

inductive PathTree.Node (α : Type v)
  | dir
  | file (content : α)
  deriving DecidableEq

abbrev PathTree (N : Type u) (α : Type v) := List (List N × PathTree.Node α)

namespace PathTree

variable {N : Type u} {α : Type v} [DecidableEq N]

/-- The entry under a path; the root is a directory. -/
def look (t : PathTree N α) (p : List N) : Option (Node α) :=
  if p = [] then some .dir else t.lookup p

/-- The names in a directory, in the order of the listing. -/
def names (t : PathTree N α) (p : List N) : List N :=
  t.filterMap fun e =>
    match e.1 with
    | [] => none
    | n :: q => if q = p then some n else none

/-- Without the entry under `p`. -/
def erase (t : PathTree N α) (p : List N) : PathTree N α := t.filter fun e => e.1 != p

/-- Without the entries under `p` and below. -/
def eraseBelow (t : PathTree N α) (p : List N) : PathTree N α := t.filter fun e => ¬p <:+ e.1

/-- `node` under `p`, in the place of what is there, or at the end. -/
def put (t : PathTree N α) (p : List N) (node : Node α) : PathTree N α :=
  if p ∈ t.map Prod.fst then t.map fun e => if e.1 = p then (p, node) else e
  else t ++ [(p, node)]

structure IsTree (t : PathTree N α) : Prop where
  nodup : (t.map Prod.fst).Nodup
  root : [] ∉ t.map Prod.fst
  parent : ∀ n p, n :: p ∈ t.map Prod.fst → t.look p = some .dir

variable {t : PathTree N α} {p q : List N} {n : N} {node : Node α}

omit [DecidableEq N] in
theorem isTree_nil [DecidableEq N] : IsTree ([] : PathTree N α) where
  nodup := List.nodup_nil
  root := List.not_mem_nil
  parent _ _ h := by cases h

theorem look_root : t.look [] = some .dir := if_pos rfl

omit [DecidableEq N] in
theorem mem_paths : p ∈ t.map Prod.fst ↔ ∃ node, (p, node) ∈ t := by
  simp

theorem look_of_mem (hp : p ≠ []) (hnodup : (t.map Prod.fst).Nodup) (h : (p, node) ∈ t) :
    t.look p = some node := by
  rw [look, if_neg hp]
  induction t with
  | nil => cases h
  | cons e t ih =>
    rw [List.map_cons, List.nodup_cons] at hnodup
    obtain hhead | htail := List.mem_cons.1 h
    · rw [← hhead, List.lookup_cons_self]
    · have hne : e.1 ≠ p := fun heq => hnodup.1 (by rw [heq]; exact mem_paths.2 ⟨node, htail⟩)
      rw [List.lookup_cons, show (p == e.1) = false from beq_eq_false_iff_ne.2 hne.symm]
      exact ih hnodup.2 htail

theorem mem_of_look (hp : p ≠ []) (h : t.look p = some node) : (p, node) ∈ t := by
  rw [look, if_neg hp] at h
  induction t with
  | nil => cases h
  | cons e t ih =>
    rw [List.lookup_cons] at h
    split at h
    · rename_i heq
      rw [beq_iff_eq] at heq
      rw [Option.some.injEq] at h
      rw [heq, ← h]
      exact List.mem_cons_self
    · exact List.mem_cons_of_mem _ (ih h)

theorem mem_names : n ∈ t.names p ↔ n :: p ∈ t.map Prod.fst := by
  rw [names, List.mem_filterMap, List.mem_map]
  constructor
  · rintro ⟨e, he, hn⟩
    refine ⟨e, he, ?_⟩
    split at hn
    · cases hn
    · rename_i m r heq
      split at hn
      · rename_i hr
        rw [heq, hr, Option.some.inj hn]
      · cases hn
  · rintro ⟨e, he, hpath⟩
    exact ⟨e, he, by rw [hpath]; exact if_pos rfl⟩

theorem names_nodup (h : (t.map Prod.fst).Nodup) : (t.names p).Nodup := by
  induction t with
  | nil => exact List.nodup_nil
  | cons e t ih =>
    rw [List.map_cons, List.nodup_cons] at h
    have hrest := ih h.2
    rw [names, List.filterMap_cons]
    split
    · exact hrest
    · rename_i m hm
      refine List.nodup_cons.2 ⟨fun hmem => h.1 ?_, hrest⟩
      have hpath := mem_names.1 hmem
      split at hm
      · cases hm
      · rename_i k r heq
        split at hm
        · rename_i hr
          rw [heq, hr, Option.some.inj hm]
          exact hpath
        · cases hm

/-! ## Below a path -/

/-- What lies below a path has an ancestor among its children. -/
theorem IsTree.exists_name (h : IsTree t) (hq : q ∈ t.map Prod.fst) (hbelow : p <:+ q)
    (hne : q ≠ p) : ∃ n ∈ t.names p, (n :: p) <:+ q := by
  induction q with
  | nil => exact absurd hq h.root
  | cons m q ih =>
    obtain heq | htail := List.suffix_cons_iff.1 hbelow
    · exact absurd heq.symm hne
    · by_cases hqp : q = p
      · subst hqp
        exact ⟨m, mem_names.2 hq, List.suffix_refl _⟩
      · have hq' : q ≠ [] := by
          intro hnil
          rw [hnil, List.suffix_nil] at htail
          exact hqp (hnil.trans htail.symm)
        have hdir := mem_of_look hq' (h.parent m q hq)
        obtain ⟨n, hn, hsuffix⟩ := ih (mem_paths.2 ⟨_, hdir⟩) htail hqp
        exact ⟨n, hn, hsuffix.trans (List.suffix_cons m q)⟩

theorem mem_eraseBelow {e : List N × Node α} : e ∈ t.eraseBelow p ↔ e ∈ t ∧ ¬p <:+ e.1 := by
  simp [eraseBelow]

/-- An entry without children goes with all that is below it. -/
theorem IsTree.erase_eq (h : IsTree t) (hleaf : t.names p = []) : t.erase p = t.eraseBelow p := by
  refine List.filter_congr fun e he => ?_
  have hmem : e.1 ∈ t.map Prod.fst := List.mem_map_of_mem he
  have hiff : e.1 = p ↔ p <:+ e.1 := by
    constructor
    · intro heq
      rw [heq]
    · intro hbelow
      by_contra hne
      obtain ⟨n, hn, -⟩ := h.exists_name hmem hbelow hne
      rw [hleaf] at hn
      cases hn
  rw [Bool.eq_iff_iff]
  simp [hiff]

/-- A file has no children. -/
theorem IsTree.names_file (h : IsTree t) {content : α} (hfile : t.look p = some (.file content)) :
    t.names p = [] := by
  rw [List.eq_nil_iff_forall_not_mem]
  intro n hn
  have hdir := h.parent n p (mem_names.1 hn)
  rw [hfile] at hdir
  cases hdir

/-! ## What is kept -/

theorem look_filter {f : List N × Node α → Bool} (hnodup : (t.map Prod.fst).Nodup)
    (hq : ∀ node, (q, node) ∈ t → f (q, node) = true) : look (t.filter f) q = t.look q := by
  by_cases hroot : q = []
  · rw [hroot, look_root, look_root]
  · cases hlook : t.look q with
    | none =>
      rw [look, if_neg hroot, List.lookup_eq_none_iff] at hlook ⊢
      intro e he
      exact hlook e (List.mem_filter.1 he).1
    | some node =>
      have hmem := mem_of_look hroot hlook
      have hsub : ((t.filter f).map Prod.fst).Nodup :=
        hnodup.sublist (List.filter_sublist.map Prod.fst)
      exact look_of_mem hroot hsub (List.mem_filter.2 ⟨hmem, hq node hmem⟩)

theorem IsTree.eraseBelow (h : IsTree t) (p : List N) : IsTree (t.eraseBelow p) where
  nodup := h.nodup.sublist (List.filter_sublist.map Prod.fst)
  root hmem := h.root ((List.filter_sublist.map Prod.fst).subset hmem)
  parent n q hmem := by
    obtain ⟨node, hnode⟩ := mem_paths.1 hmem
    obtain ⟨hin, hnot⟩ := mem_eraseBelow.1 hnode
    rw [PathTree.eraseBelow, look_filter h.nodup]
    · exact h.parent n q (mem_paths.2 ⟨node, hin⟩)
    · intro _ _
      have hq : ¬p <:+ q := fun hbelow => hnot (hbelow.trans (List.suffix_cons n q))
      simpa using hq

theorem eraseBelow_eraseBelow (h : p <:+ q) : (t.eraseBelow q).eraseBelow p = t.eraseBelow p := by
  unfold eraseBelow
  rw [List.filter_filter]
  refine List.filter_congr fun e _ => ?_
  rw [Bool.eq_iff_iff]
  simp only [Bool.and_eq_true, decide_eq_true_iff]
  exact ⟨fun hboth => hboth.1, fun hp => ⟨hp, fun hq => hp (h.trans hq)⟩⟩

theorem eraseBelow_sublist (t : PathTree N α) (p : List N) : (t.eraseBelow p).Sublist t :=
  List.filter_sublist

theorem notMem_eraseBelow (t : PathTree N α) (p : List N) : p ∉ (t.eraseBelow p).map Prod.fst := by
  rintro hmem
  obtain ⟨node, hnode⟩ := mem_paths.1 hmem
  exact (mem_eraseBelow.1 hnode).2 (List.suffix_refl p)

theorem look_put (hp : p ≠ []) (t : PathTree N α) (node : Node α) :
    (t.put p node).look p = some node := by
  rw [look, if_neg hp, put]
  split
  · rename_i hmem
    induction t with
    | nil => cases hmem
    | cons e t ih =>
      rw [List.map_cons, List.lookup_cons]
      by_cases heq : e.1 = p
      · simp [heq]
      · have hne : (p == e.1) = false := beq_eq_false_iff_ne.2 (Ne.symm heq)
        rw [if_neg heq, hne]
        rw [List.map_cons, List.mem_cons] at hmem
        obtain hhead | htail := hmem
        · exact absurd hhead.symm heq
        · exact ih htail
  · rename_i hmem
    have hnone : t.lookup p = none := by
      rw [List.lookup_eq_none_iff]
      intro e he
      have hne : p ≠ e.1 := by
        intro heq
        rw [heq] at hmem
        exact hmem (List.mem_map_of_mem he)
      exact bne_iff_ne.2 hne
    rw [List.lookup_append, hnone]
    simp

theorem look_put_of_ne (t : PathTree N α) (node : Node α) (hne : q ≠ p) :
    (t.put p node).look q = t.look q := by
  by_cases hroot : q = []
  · rw [hroot, look_root, look_root]
  · rw [look, look, if_neg hroot, if_neg hroot, put]
    split
    · clear * - hne
      induction t with
      | nil => rfl
      | cons e t ih =>
        have hqp : (q == p) = false := beq_eq_false_iff_ne.2 hne
        rw [List.map_cons, List.lookup_cons, List.lookup_cons, ih]
        by_cases heq : e.1 = p
        · rw [if_pos heq, heq, hqp]
        · rw [if_neg heq]
    · rw [List.lookup_append]
      have hqp : (q == p) = false := beq_eq_false_iff_ne.2 hne
      rw [List.lookup_cons, hqp]
      simp

theorem paths_put (t : PathTree N α) (p : List N) (node : Node α) :
    (t.put p node).map Prod.fst =
      if p ∈ t.map Prod.fst then t.map Prod.fst else t.map Prod.fst ++ [p] := by
  rw [put]
  split
  · rw [List.map_map]
    refine List.map_congr_left fun e _ => ?_
    show (if e.1 = p then (p, node) else e).1 = e.1
    split
    · rename_i heq
      exact heq.symm
    · rfl
  · rw [List.map_append]
    rfl

/-- An entry in a directory, which does not turn a directory into a file. -/
theorem IsTree.put (h : IsTree t) (hparent : t.look p = some .dir)
    (hnode : node = .dir ∨ t.look (n :: p) ≠ some .dir) : IsTree (t.put (n :: p) node) where
  nodup := by
    rw [paths_put]
    split
    · exact h.nodup
    · rename_i hnew
      refine List.nodup_append.2 ⟨h.nodup, List.nodup_singleton _, ?_⟩
      intro a ha b hb
      rw [List.mem_singleton.1 hb]
      exact fun heq => hnew (heq ▸ ha)
  root := by
    rw [paths_put]
    split
    · exact h.root
    · rw [List.mem_append, List.mem_singleton]
      rintro (hmem | hnil)
      · exact h.root hmem
      · cases hnil
  parent m q hmem := by
    have hold : t.look q = some .dir := by
      rw [paths_put] at hmem
      split at hmem
      · exact h.parent m q hmem
      · obtain hin | hnew := List.mem_append.1 hmem
        · exact h.parent m q hin
        · rw [List.mem_singleton] at hnew
          cases hnew
          exact hparent
    by_cases hq : q = n :: p
    · rw [hq, look_put (List.cons_ne_nil n p)]
      obtain rfl | hfile := hnode
      · rfl
      · rw [hq] at hold
        exact absurd hold hfile
    · rw [look_put_of_ne t node hq]
      exact hold

end PathTree
