import ClassAtlas.Disk.Basic
import ClassAtlas.Proofs.Collection.SortedMap
import ClassAtlas.Proofs.Path.Below
import Mathlib.Data.List.Induction

namespace ClassAtlas

namespace KeyOrder

variable {κ : Type} [KeyOrder κ]

/-- A common beginning does not change the order. -/
theorem before_append_left (p a b : List κ) : before (p ++ a) (p ++ b) = before a b := by
  induction p with
  | nil => rfl
  | cons x p ih =>
    rw [← ih]
    simp [before, listBefore, irrefl]

end KeyOrder

namespace Disk

/-- At some directory the way to `p` goes on with a smaller name than the way to `q`. -/
def Precedes (p q : List Text) : Prop :=
  ∃ dir a b, KeyOrder.before a b = true ∧ dir ++ [a] <+: p ∧ dir ++ [b] <+: q

/-- What precedes comes first in the order of paths. -/
theorem Precedes.before {p q : List Text} (h : Precedes p q) : KeyOrder.before p q = true := by
  obtain ⟨dir, a, b, hab, ⟨s, rfl⟩, t, rfl⟩ := h
  rw [List.append_assoc, List.append_assoc, KeyOrder.before_append_left]
  exact KeyOrder.listBefore_cons_iff.mpr (Or.inl hab)

/-- A walk comes to a directory before its contents, and else to what precedes first. -/
theorem prefix_or_precedes {p q : List Text} (h : KeyOrder.before p q = true) :
    p <+: q ∨ Precedes p q := by
  induction p generalizing q with
  | nil => exact Or.inl List.nil_prefix
  | cons a p ih =>
    cases q with
    | nil => simp [KeyOrder.before, KeyOrder.listBefore] at h
    | cons b q =>
      rcases KeyOrder.listBefore_cons_iff.mp h with hab | ⟨rfl, hrest⟩
      · exact Or.inr ⟨[], a, b, hab, ⟨p, rfl⟩, q, rfl⟩
      · rcases ih hrest with hfront | ⟨dir, x, y, hxy, hp, hq⟩
        · exact Or.inl ((List.prefix_cons_inj a).mpr hfront)
        · exact Or.inr ⟨a :: dir, x, y, hxy, (List.prefix_cons_inj a).mpr hp,
            (List.prefix_cons_inj a).mpr hq⟩

/-- A directory is never behind its contents. -/
theorem not_prefix_of_before {p q : List Text} (h : KeyOrder.before p q = true) : ¬q <+: p := by
  rintro ⟨rest, rfl⟩
  have hback : KeyOrder.before (q ++ rest) (q ++ []) = true := by rwa [List.append_nil]
  rw [KeyOrder.before_append_left] at hback
  cases rest <;> contradiction

/-- Once a walk has left a directory it does not come back to it. -/
theorem before_of_left {dir p q : List Text} (h : KeyOrder.before dir q = true) (hleft : ¬dir <+: q)
    (hp : dir <+: p) : KeyOrder.before p q = true := by
  obtain ⟨common, a, b, hab, hdir, hq⟩ := (prefix_or_precedes h).resolve_left hleft
  exact Precedes.before ⟨common, a, b, hab, hdir.trans hp, hq⟩

/-- A disk as a system keeps it: the entries have names and stand in directories, and the working
directory has an absolute path. -/
structure IsTree (d : Disk) : Prop where
  named : ∀ e ∈ d.nodes.toList, ∀ s ∈ e.1, Path.IsName s
  closed : ∀ e ∈ d.nodes.toList, d.node? e.1.dropLast = some .directory
  grounded : Path.isAbsolute d.workdir = true

instance (d : Disk) : Decidable d.IsTree :=
  decidable_of_iff ((∀ e ∈ d.nodes.toList, ∀ s ∈ e.1, Path.IsName s) ∧
      (∀ e ∈ d.nodes.toList, d.node? e.1.dropLast = some .directory) ∧
      Path.isAbsolute d.workdir = true)
    ⟨fun h => ⟨h.1, h.2.1, h.2.2⟩, fun h => ⟨h.named, h.closed, h.grounded⟩⟩

variable {d : Disk} {top : List Text}

/-- Everywhere but at the top there is what the disk lists. -/
theorem node?_of_ne_nil {place : List Text} (h : place ≠ []) : d.node? place = d.nodes.find? place := by
  simp [node?, h]

/-- A path leads to what stands at its place. -/
theorem nodeAt_eq_ok_iff {follow : Bool} {path : Text} {n : Node} :
    d.nodeAt follow path = .ok n ↔
      ∃ place, d.resolve follow path = .ok place ∧ d.node? place = some n := by
  unfold nodeAt
  cases d.resolve follow path with
  | error e => simp [bind, Except.bind]
  | ok place => cases hnode : d.node? place <;> simp [bind, Except.bind, hnode]

/-- A file is read if its path leads to it, possibly through links, and its place may be read. -/
theorem readFile_eq_ok_iff {path t : Text} :
    d.readFile path = .ok t ↔ ∃ place, d.resolve true path = .ok place ∧
      d.node? place = some (.file t) ∧ d.isReadable place = true := by
  unfold readFile openAt
  cases d.resolve true path with
  | error e => simp [bind, Except.bind]
  | ok place =>
    cases hnode : d.node? place with
    | none => simp [bind, Except.bind, hnode]
    | some n => cases n <;> cases hreadable : d.isReadable place <;> simp [bind, Except.bind, hnode, hreadable]

namespace IsTree

/-- Everything on a tree has a way of names. -/
theorem isName (h : d.IsTree) {place : List Text} {n : Node} (hn : d.node? place = some n) :
    ∀ s ∈ place, Path.IsName s := by
  by_cases hplace : place = []
  · simp [hplace]
  · rw [node?_of_ne_nil hplace] at hn
    exact h.named _ (SortedMap.mem_toList_iff.mpr hn)

/-- Below any place, everything on a tree has a way of names. -/
theorem isName_below (h : d.IsTree) {rel : List Text} {n : Node} (hn : d.node? (top ++ rel) = some n) :
    ∀ s ∈ rel, Path.IsName s :=
  fun s hs => h.isName hn s (List.mem_append_right top hs)

/-- What stands in a tree stands in a directory. -/
theorem parent (h : d.IsTree) {place : List Text} {name : Text} {n : Node}
    (hn : d.node? (place ++ [name]) = some n) : d.node? place = some .directory := by
  rw [node?_of_ne_nil (by simp)] at hn
  have hclosed := h.closed _ (SortedMap.mem_toList_iff.mpr hn)
  rwa [List.dropLast_concat] at hclosed

/-- Whatever has something below it is a directory. -/
theorem directory_of_prefix (h : d.IsTree) {place rest : List Text} {n : Node} (hrest : rest ≠ [])
    (hn : d.node? (place ++ rest) = some n) : d.node? place = some .directory := by
  induction rest using List.reverseRecOn generalizing n with
  | nil => exact absurd rfl hrest
  | append_singleton rest name ih =>
    rw [← List.append_assoc] at hn
    have hparent := h.parent hn
    by_cases hempty : rest = []
    · rwa [hempty, List.append_nil] at hparent
    · exact ih hempty hparent

end IsTree

/-- The entries below a place are all that stands there. Links are entries and are not followed. -/
theorem mem_below_iff {rel : List Text} {n : Node} :
    (rel, n) ∈ d.below top ↔ rel ≠ [] ∧ d.node? (top ++ rel) = some n := by
  unfold below
  rw [List.mem_filterMap]
  constructor
  · rintro ⟨⟨place, m⟩, hmem, hentry⟩
    dsimp only at hentry
    split at hentry
    · next hbelow =>
      simp only [Bool.and_eq_true, List.isPrefixOf_iff_prefix, bne_iff_ne] at hbelow
      obtain ⟨⟨rest, rfl⟩, hlength⟩ := hbelow
      obtain ⟨hrel, rfl⟩ := Prod.mk.inj (Option.some.inj hentry)
      rw [List.drop_left] at hrel
      subst hrel
      have hne : rest ≠ [] := by
        rintro rfl
        simp at hlength
      rw [node?_of_ne_nil (by simp [hne])]
      exact ⟨hne, SortedMap.mem_toList_iff.mp hmem⟩
    · contradiction
  · rintro ⟨hne, hnode⟩
    rw [node?_of_ne_nil (by simp [hne])] at hnode
    refine ⟨(top ++ rel, n), SortedMap.mem_toList_iff.mpr hnode, ?_⟩
    have hleads : top.isPrefixOf (top ++ rel) = true :=
      List.isPrefixOf_iff_prefix.mpr (List.prefix_append top rel)
    simp [hleads, hne]

/-- The entries below a place are in the order of their names, without repetition. -/
theorem increasingBy_below (d : Disk) (top : List Text) : IncreasingBy Prod.fst (d.below top) := by
  unfold below IncreasingBy
  rw [List.pairwise_filterMap]
  refine d.nodes.ascending.imp ?_
  rintro ⟨p, m⟩ ⟨q, n⟩ hpq e he e' he'
  dsimp only at hpq he he'
  split at he
  · next hp =>
    split at he'
    · next hq =>
      simp only [Bool.and_eq_true, List.isPrefixOf_iff_prefix] at hp hq
      obtain ⟨⟨a, rfl⟩, -⟩ := hp
      obtain ⟨⟨b, rfl⟩, -⟩ := hq
      obtain rfl := Option.some.inj he
      obtain rfl := Option.some.inj he'
      simpa [KeyOrder.before_append_left] using hpq
    · contradiction
  · contradiction

/-- The entry lies below the directory that is being left out. -/
def Hides (hidden : Option (List Text)) (e : Entry) : Prop := ∃ dir, hidden = some dir ∧ dir <+: e.1

variable {pruned : Entry → Bool} {hidden : Option (List Text)} {e : Entry} {rest entries : List Entry}

/-- An entry below the directory that is being left out is left out. -/
theorem prune_of_hides (h : Hides hidden e) :
    prune pruned hidden (e :: rest) = prune pruned hidden rest := by
  obtain ⟨dir, rfl, hleads⟩ := h
  simp [prune, hleads]

/-- Any other entry stays, and hides what lies below it if it is to be left out. -/
theorem prune_of_not_hides (h : ¬Hides hidden e) : prune pruned hidden (e :: rest) =
    e :: prune pruned (if pruned e then some e.1 else none) rest := by
  have hvisible : ∀ dir, hidden = some dir → dir.isPrefixOf e.1 = false := by
    intro dir hdir
    rw [Bool.eq_false_iff, ne_eq, List.isPrefixOf_iff_prefix]
    exact fun hleads => h ⟨dir, hdir, hleads⟩
  cases hidden with
  | none => by_cases hpruned : pruned e = true <;> simp [prune, hpruned]
  | some dir => by_cases hpruned : pruned e = true <;> simp [prune, hpruned, hvisible dir rfl]

/-- What stays stays in its order. -/
theorem prune_sublist (pruned : Entry → Bool) (hidden : Option (List Text)) (entries : List Entry) :
    (prune pruned hidden entries).Sublist entries := by
  induction entries generalizing hidden with
  | nil => exact List.Sublist.slnil
  | cons e rest ih =>
    by_cases h : Hides hidden e
    · rw [prune_of_hides h]
      exact (ih hidden).cons e
    · rw [prune_of_not_hides h]
      exact (ih _).cons_cons e

/-- A directory that the walk has left hides nothing any more. -/
theorem not_hides_of_left {f : Entry}
    (hpassed : ∀ dir, hidden = some dir → KeyOrder.before dir f.1 = true) (hleft : ¬Hides hidden f)
    (h : KeyOrder.before f.1 e.1 = true) : ¬Hides hidden e := by
  rintro ⟨dir, hdir, hleads⟩
  have hback : KeyOrder.before e.1 f.1 = true :=
    before_of_left (hpassed dir hdir) (fun hf => hleft ⟨dir, hdir, hf⟩) hleads
  rw [KeyOrder.asymm h] at hback
  contradiction

/-- Exactly those entries stay that do not lie below an entry that is left out, nor below the directory
that is being left out at the start, which the walk has passed. -/
theorem mem_prune_iff (hsorted : IncreasingBy Prod.fst entries)
    (hpassed : ∀ dir, hidden = some dir → ∀ e ∈ entries, KeyOrder.before dir e.1 = true) :
    e ∈ prune pruned hidden entries ↔
      e ∈ entries ∧ ¬Hides hidden e ∧ ∀ e' ∈ entries, pruned e' = true → e'.1 <+: e.1 → e'.1 = e.1 := by
  induction entries generalizing hidden with
  | nil => simp [prune]
  | cons f rest ih =>
    obtain ⟨hfirst, hrest⟩ := List.pairwise_cons.mp hsorted
    rw [List.forall_mem_cons]
    by_cases hhidden : Hides hidden f
    · rw [prune_of_hides hhidden,
        ih hrest fun dir hdir e he => hpassed dir hdir e (List.mem_cons_of_mem _ he)]
      obtain ⟨dir, hdir, hleads⟩ := hhidden
      constructor
      · rintro ⟨hmem, hvisible, hothers⟩
        refine ⟨List.mem_cons_of_mem _ hmem, hvisible, ?_, hothers⟩
        intro _ hfe
        exact absurd ⟨dir, hdir, hleads.trans hfe⟩ hvisible
      · rintro ⟨hmem, hvisible, -, hothers⟩
        rcases List.mem_cons.mp hmem with rfl | hmem
        · exact absurd ⟨dir, hdir, hleads⟩ hvisible
        · exact ⟨hmem, hvisible, hothers⟩
    · -- the first entry stays, and from now on only what it hides itself is left out
      let hidden' := if pruned f then some f.1 else none
      have hpassed' : ∀ dir, hidden' = some dir → ∀ e ∈ rest, KeyOrder.before dir e.1 = true := by
        intro dir hdir e he
        obtain ⟨-, rfl⟩ : pruned f = true ∧ f.1 = dir := by simpa [hidden'] using hdir
        exact hfirst e he
      have hhides' : Hides hidden' e ↔ pruned f = true ∧ f.1 <+: e.1 := by
        simp [Hides, hidden', and_assoc]
      rw [prune_of_not_hides hhidden, List.mem_cons, List.mem_cons, ih hrest hpassed', hhides']
      constructor
      · rintro (rfl | ⟨hmem, hvisible, hothers⟩)
        · refine ⟨Or.inl rfl, hhidden, fun _ _ => rfl, ?_⟩
          intro e' he' _ hleads
          exact absurd hleads (not_prefix_of_before (hfirst e' he'))
        · have hleft : ¬Hides hidden e :=
            not_hides_of_left (fun dir hdir => hpassed dir hdir f List.mem_cons_self) hhidden
              (hfirst e hmem)
          refine ⟨Or.inr hmem, hleft, ?_, hothers⟩
          intro hpruned hfe
          exact absurd ⟨hpruned, hfe⟩ hvisible
      · rintro ⟨rfl | hmem, -, hfe, hothers⟩
        · exact Or.inl rfl
        · refine Or.inr ⟨hmem, ?_, hothers⟩
          rintro ⟨hpruned, hleads⟩
          exact KeyOrder.ne_of_before (hfirst e hmem) (hfe hpruned hleads)

/-- If a walk leaves out some directories, it comes to those entries that have none of them among their
ancestors. -/
theorem IsTree.mem_prune_below_iff (h : d.IsTree) (left : List Text → Bool) {rel : List Text} {n : Node} :
    (rel, n) ∈ prune (fun e => e.2.isDirectory && left e.1) none (d.below top) ↔
      rel ≠ [] ∧ d.node? (top ++ rel) = some n ∧
        ∀ front, front ≠ [] → front <+: rel.dropLast → left front = false := by
  rw [mem_prune_iff (increasingBy_below d top) (by simp), mem_below_iff, and_assoc]
  have hnone : ¬Hides none (rel, n) := by simp [Hides]
  refine and_congr_right fun hne => and_congr_right fun hnode => ?_
  constructor
  · rintro ⟨-, hothers⟩ front hfront ⟨back, hback⟩
    -- what stands there is a directory, and the walk would leave out the entry with it
    have hrel : rel = front ++ (back ++ [rel.getLast hne]) := by
      rw [← List.append_assoc, hback, List.dropLast_append_getLast]
    have hfull : d.node? ((top ++ front) ++ (back ++ [rel.getLast hne])) = some n := by
      rw [List.append_assoc, ← hrel]
      exact hnode
    have hdir : d.node? (top ++ front) = some .directory := h.directory_of_prefix (by simp) hfull
    by_contra hleft
    have hmem : (front, Node.directory) ∈ d.below top := mem_below_iff.mpr ⟨hfront, hdir⟩
    have hsame := hothers _ hmem (by simpa [Node.isDirectory] using hleft) ⟨_, hrel.symm⟩
    have hlength : front.length = rel.length := congrArg List.length hsame
    rw [hrel, List.length_append] at hlength
    simp at hlength
  · intro hclear
    refine ⟨hnone, ?_⟩
    rintro ⟨p, m⟩ hmem hpruned ⟨rest, hrest⟩
    dsimp only at hrest hpruned ⊢
    obtain ⟨hp, -⟩ := mem_below_iff.mp hmem
    by_cases hempty : rest = []
    · rw [← hrest, hempty, List.append_nil]
    · have hleads : p <+: rel.dropLast := by
        rw [← hrest, List.dropLast_append_of_ne_nil hempty]
        exact List.prefix_append ..
      simp [hclear p hp hleads] at hpruned

end Disk

end ClassAtlas
