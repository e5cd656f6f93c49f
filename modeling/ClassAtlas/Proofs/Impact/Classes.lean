import ClassAtlas.Proofs.Graph.Order
import ClassAtlas.Proofs.Impact.Search
import Mathlib.Logic.Relation

namespace ClassAtlas

namespace Reverse

variable {names seen : List Text} {above : Text → List Text}

/-- A loop that takes a name from the queue and puts behind the others what is above it and not seen
yet, until the queue is empty: how many turns it takes, and what it finds. -/
inductive Turns (above : Text → List Text) :
    (queue seen : List Text) → (turns : Nat) → (found : List Text) → Prop
  | stop {seen : List Text} : Turns above [] seen 0 []
  | turn {name : Text} {rest seen new found : List Text} {n : Nat}
      (hnew : new = (above name).filter fun b => !seen.contains b)
      (hrest : Turns above (rest ++ new) (new ++ seen) n found) :
      Turns above (name :: rest) seen (n + 1) (new ++ found)

/-- Where all names are known, the fresh ones are those not yet seen. -/
theorem fresh_eq_filter {found : List Text} (h : ∀ b ∈ found, b ∈ names) :
    fresh names seen found = found.filter fun b => !seen.contains b := by
  apply List.filter_congr
  intro b hb
  simp [h b hb]

/-- Without a limit, the search is the loop. It takes a turn for each name in the queue and for each
name that it finds. -/
theorem turns_search (hnames : ∀ a, ∀ b ∈ above a, b ∈ names) (queue : List (Text × Nat))
    (seen : List Text) :
    Turns above (queue.map (·.1)) seen (queue.length + (search names above 0 queue seen).length)
      ((search names above 0 queue seen).map (·.name)) := by
  generalize hlimit : 0 = limit
  fun_induction search names above limit queue seen with
  | case1 => exact .stop
  | case2 seen name distance rest hskip ih =>
    -- without a limit no name is skipped
    simp [← hlimit] at hskip
  | case3 seen name distance rest hskip ih =>
    have hqueue : (rest ++ (fresh names seen (above name)).map fun n => (n, distance + 1)).map (·.1) =
        rest.map (·.1) ++ fresh names seen (above name) := by simp [Function.comp_def]
    rw [hqueue] at ih
    have hturn := Turns.turn (fresh_eq_filter (hnames name)) ih
    convert hturn using 1
    · rfl
    · simp only [List.length_cons, List.length_append, List.length_map]
      omega
    · simp [Function.comp_def]

/-- The loop takes one turn for each seed and for each name that it finds, and then it ends. -/
theorem turns_closure (hnames : ∀ a, ∀ b ∈ above a, b ∈ names) (seeds : List Text) :
    Turns above seeds seeds (seeds.length + (closure names above 0 seeds).length)
      ((closure names above 0 seeds).map (·.name)) := by
  have hturns := turns_search hnames (seeds.map fun s => (s, 0)) seeds
  simpa [closure, Function.comp_def] using hturns

end Reverse

namespace Impact

open ClassGraph

variable {g : ClassGraph} {name : Text}

/-- The classes that depend directly on a class. -/
def dependentsOf (g : ClassGraph) (name : Text) : List Text := (g.dependents? name).getD []

/-- A class depends directly on another if an edge leads there. -/
theorem mem_dependentsOf_iff (hg : g.WellFormed) {source target : Text} :
    source ∈ dependentsOf g target ↔ ∃ e ∈ g.edges, e.ends = (source, target) := by
  rw [← hg.mem_dependents_iff, dependentsOf]
  cases g.dependents? target <;> simp

/-- All dependents are classes of the graph. -/
theorem mem_keys_of_mem_dependentsOf (hg : g.WellFormed) (name : Text) :
    ∀ b ∈ dependentsOf g name, b ∈ g.nodes.keys := by
  intro b hb
  obtain ⟨e, he, hends⟩ := (mem_dependentsOf_iff hg).mp hb
  obtain ⟨rfl, rfl⟩ := Prod.mk.inj hends
  exact SortedMap.mem_keys_iff.mpr (SortedMap.contains_iff.mpr (hg.node_of_mem he).1)

/-- The affected classes are those with a way to a changed one, without the changed ones. The changed
names need not be classes. -/
theorem mem_affectedClasses_iff (hg : g.WellFormed) {changed : List Text} :
    name ∈ affectedClasses g changed ↔
      name ∉ changed ∧ ∃ n, Reverse.Way (dependentsOf g) changed n name := by
  rw [← Reverse.mem_closure_zero_iff (mem_keys_of_mem_dependentsOf hg), affectedClasses,
    mem_sortDistinct, List.mem_map]
  rfl

/-- No dependent is listed twice. -/
theorem nodup_dependentsOf (hg : g.WellFormed) (name : Text) : (dependentsOf g name).Nodup := by
  rw [dependentsOf, hg.dependents?_eq]
  cases g.units.find? name with
  | none => exact List.nodup_nil
  | some u => exact (hg.increasingBy_source_filter name).nodup_map

/-- From a class that is not changed itself, a way to a changed one has an edge. -/
theorem exists_way_iff (hg : g.WellFormed) {changed : List Text} (hname : name ∉ changed) :
    (∃ n, Reverse.Way (dependentsOf g) changed n name) ↔
      ∃ c ∈ changed, Relation.TransGen (fun a b => g.hasEdge a b = true) name c := by
  have hedge : ∀ a b, g.hasEdge a b = true ↔ a ∈ dependentsOf g b := by
    intro a b
    rw [hg.hasEdge_iff, mem_dependentsOf_iff hg]
  constructor
  · rintro ⟨n, hway⟩
    induction hway with
    | seed hs => contradiction
    | @step n a b hrest hb ih =>
      have hfirst := (hedge b a).mpr hb
      by_cases ha : a ∈ changed
      · exact ⟨a, ha, .single hfirst⟩
      · obtain ⟨c, hc, hpath⟩ := ih ha
        exact ⟨c, hc, .head hfirst hpath⟩
  · rintro ⟨c, hc, hpath⟩
    clear hname
    induction hpath using Relation.TransGen.head_induction_on with
    | single hlast => exact ⟨1, .step (.seed hc) ((hedge _ _).mp hlast)⟩
    | head hfirst _ ih =>
      obtain ⟨n, hway⟩ := ih
      exact ⟨n + 1, .step hway ((hedge _ _).mp hfirst)⟩

/-- There are as many affected classes as the search finds. -/
theorem length_affectedClasses (hg : g.WellFormed) (changed : List Text) :
    (affectedClasses g changed).length =
      (Reverse.closure g.nodes.keys (dependentsOf g) 0 changed).length := by
  have hnodup : ((Reverse.closure g.nodes.keys (dependentsOf g) 0 changed).map (·.name)).Nodup :=
    Reverse.nodup_closure (mem_keys_of_mem_dependentsOf hg) (nodup_dependentsOf hg)
  have hperm := (List.perm_ext_iff_of_nodup (increasingBy_sortDistinct _).nodup hnodup).mpr
    fun _ => mem_sortDistinct
  have hlength := hperm.length_eq
  rwa [List.length_map] at hlength

/-- The affected classes of changed ones are exactly the others from which a changed one can be reached,
in the order of their names. The search for them ends after one turn for each changed class and each
affected one. -/
theorem affectedClasses_exact (hg : g.Reachable) (changed : List Text) :
    (∃ found, affectedClasses g changed = sortDistinct found ∧
      Reverse.Turns (dependentsOf g) changed changed
        (changed.length + (affectedClasses g changed).length) found) ∧
    IncreasingBy id (affectedClasses g changed) ∧
    ∀ name, name ∈ affectedClasses g changed ↔ name ∉ changed ∧
      ∃ c ∈ changed, Relation.TransGen (fun a b => g.hasEdge a b = true) name c := by
  have hwell := hg.wellFormed
  refine ⟨⟨_, rfl, ?_⟩, increasingBy_sortDistinct _, ?_⟩
  · rw [length_affectedClasses hwell]
    exact Reverse.turns_closure (mem_keys_of_mem_dependentsOf hwell) changed
  · intro name
    rw [mem_affectedClasses_iff hwell]
    apply and_congr_right
    intro hname
    exact exists_way_iff hwell hname

/-- Two classes that use each other, and a third that uses one of them. -/
def cyclicGraph : ClassGraph :=
  (ClassGraph.new "/" ⟨9, 9⟩).runCalls [
    .addNode ⟨"A", [], "/A", "m"⟩, .addNode ⟨"B", [], "/B", "m"⟩, .addNode ⟨"C", [], "/C", "m"⟩,
    .addEdge "A" "B" ⟨1⟩, .addEdge "B" "A" ⟨1⟩, .addEdge "C" "B" ⟨2⟩]

/-- A changed class in a cycle affects the other one and what uses that, but not itself; a changed class
that the graph does not have affects nothing. -/
theorem affectedClasses_exact_in_cycle : cyclicGraph.Reachable ∧
    Text.ofString "B" ∈ affectedClasses cyclicGraph ["A", "X"] ∧
    Text.ofString "C" ∈ affectedClasses cyclicGraph ["A", "X"] ∧
    Text.ofString "A" ∉ affectedClasses cyclicGraph ["A", "X"] := by
  have hreach : cyclicGraph.Reachable := ⟨_, _, _, rfl⟩
  obtain ⟨-, -, hmem⟩ := affectedClasses_exact hreach ["A", "X"]
  have hchanged : Text.ofString "A" ∈ [Text.ofString "A", "X"] := List.mem_cons_self
  have hback : cyclicGraph.hasEdge "B" "A" = true := by decide
  have huse : cyclicGraph.hasEdge "C" "B" = true := by decide
  refine ⟨hreach, ?_, ?_, fun hself => ((hmem _).mp hself).1 hchanged⟩
  · exact (hmem _).mpr ⟨by decide, _, hchanged, .single hback⟩
  · exact (hmem _).mpr ⟨by decide, _, hchanged, .head huse (.single hback)⟩

end Impact

end ClassAtlas
