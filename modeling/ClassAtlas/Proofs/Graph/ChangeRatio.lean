import ClassAtlas.Proofs.Graph.Changes
import Mathlib.Algebra.Order.Field.Basic
import Mathlib.Algebra.Order.Ring.Rat
import Mathlib.Data.Rat.Cast.Order

namespace ClassAtlas.GraphDiff

variable {base target : ClassGraph}

/-- The number of classes that came, went or moved. -/
def changedClasses (d : GraphDiff) : Nat :=
  d.classesAdded.length + d.classesRemoved.length + d.classesMoved.length

/-- The fraction of classes that changed, not rounded: of the classes of the larger graph, and zero if there are
none. -/
def changeFraction (d : GraphDiff) (base target : ClassGraph) : ℚ :=
  let total := max base.nodeCount target.nodeCount
  if total = 0 then 0 else d.changedClasses / total

/-- The classes of both graphs. -/
def commonClasses (base target : ClassGraph) : List Text :=
  base.nodes.keys.filter fun name => target.nodes.contains name

/-- The class is in the same module in both graphs, or in neither graph. -/
def staysIn (base target : ClassGraph) (name : Text) : Bool :=
  (base.node? name).map (·.unit.module) == (target.node? name).map (·.unit.module)

/-- The classes of both graphs that did not move. -/
def keptClasses (base target : ClassGraph) : List Text :=
  (commonClasses base target).filter (staysIn base target)

/-- The common classes stand in the order of their names. -/
theorem increasingBy_commonClasses (base target : ClassGraph) : IncreasingBy id (commonClasses base target) :=
  base.nodes.increasingBy_keys.filter _

/-- The common classes are in both graphs. -/
theorem mem_commonClasses {name : Text} : name ∈ commonClasses base target ↔
    base.nodes.contains name = true ∧ target.nodes.contains name = true := by
  simp [commonClasses, SortedMap.mem_keys_iff]

/-- The common classes are the same the other way round. -/
theorem commonClasses_comm (base target : ClassGraph) :
    commonClasses base target = commonClasses target base := by
  apply (increasingBy_commonClasses base target).eq_of_mem_iff (increasingBy_commonClasses target base)
  intro name
  rw [mem_commonClasses, mem_commonClasses, and_comm]

/-- A class of a graph is in the other one, or new. -/
theorem nodeCount_eq (g other : ClassGraph) :
    g.nodeCount = (commonClasses g other).length + (newClasses g other).length := by
  have hkeys : g.nodeCount = g.nodes.keys.length := (List.length_map ..).symm
  rw [hkeys]
  exact List.length_eq_length_filter_add _

/-- The moved classes are those of both graphs that did not stay. -/
theorem map_name_moves (base : ClassGraph) (ht : target.WellFormed) : (moves base target).map (·.name) =
    (commonClasses base target).filter fun name => !staysIn base target name := by
  have hmoves : IncreasingBy id ((moves base target).map (·.name)) := IncreasingBy.map (increasingBy_moves ht)
  apply hmoves.eq_of_mem_iff ((increasingBy_commonClasses base target).filter _)
  intro name
  simp only [List.mem_map, mem_moves_iff ht, List.mem_filter, mem_commonClasses, SortedMap.contains_iff,
    Bool.not_eq_true', staysIn, beq_eq_false_iff_ne]
  constructor
  · rintro ⟨m, ⟨hsource, htarget, hne⟩, rfl⟩
    obtain ⟨b, hb, -⟩ := Option.map_eq_some_iff.mp hsource
    obtain ⟨t, ht', -⟩ := Option.map_eq_some_iff.mp htarget
    refine ⟨⟨⟨b, hb⟩, ⟨t, ht'⟩⟩, ?_⟩
    rw [hsource, htarget]
    exact fun heq => hne (Option.some.inj heq)
  · rintro ⟨⟨⟨b, hb⟩, ⟨t, ht'⟩⟩, hne⟩
    change base.node? name = some b at hb
    change target.node? name = some t at ht'
    refine ⟨⟨name, b.unit.module, t.unit.module⟩, ⟨by simp [hb], by simp [ht'], ?_⟩, rfl⟩
    simpa [hb, ht'] using hne

/-- Each common class was kept or moved. The base need not be well-formed. -/
theorem length_commonClasses (base : ClassGraph) (ht : target.WellFormed) : (commonClasses base target).length =
    (keptClasses base target).length + (moves base target).length := by
  have hmoves := congrArg List.length (map_name_moves base ht)
  rw [List.length_map] at hmoves
  rw [hmoves]
  exact List.length_eq_length_filter_add _

/-- Of two graphs, as many classes changed as the larger one has, less those that stayed, and more by the smaller
of the two numbers of classes that came and that went. -/
theorem changedClasses_add_kept (ht : target.WellFormed) (i j : Text) :
    (compare base target i j).changedClasses + (keptClasses base target).length =
      max base.nodeCount target.nodeCount +
        min (newClasses target base).length (newClasses base target).length := by
  have hbase := nodeCount_eq base target
  have htarget := nodeCount_eq target base
  rw [commonClasses_comm] at htarget
  have hcommon := length_commonClasses base ht
  change (newClasses target base).length + (newClasses base target).length + (moves base target).length + _ = _
  omega

/-- The fraction is bounded as the number of changes is, for graphs that are not both empty. -/
theorem changeFraction_le_iff (d : GraphDiff) (hpos : max base.nodeCount target.nodeCount ≠ 0) (n : Nat) :
    d.changeFraction base target ≤ n ↔ d.changedClasses ≤ n * max base.nodeCount target.nodeCount := by
  have htotal : (0 : ℚ) < (max base.nodeCount target.nodeCount : Nat) := Nat.cast_pos.mpr (Nat.pos_of_ne_zero hpos)
  rw [changeFraction, if_neg hpos, div_le_iff₀ htotal]
  exact_mod_cast Iff.rfl

/-- The fraction is never negative. -/
theorem changeFraction_nonneg (d : GraphDiff) (base target : ClassGraph) : 0 ≤ d.changeFraction base target := by
  unfold changeFraction
  dsimp only
  split
  · exact le_rfl
  · exact div_nonneg (Nat.cast_nonneg _) (Nat.cast_nonneg _)

/-- The fraction of changed classes is between zero and two. It is at most one exactly if the classes that came or
those that went are no more than the classes that stayed where they were. -/
theorem changeFraction_le_one_iff (base : ClassGraph) (htarget : target.Reachable) (i j : Text) :
    ∃ d, compare? (some base) (some target) i j = .ok d ∧
      d.summary.changeRatio = Binary.ofCounts d.changedClasses (max base.nodeCount target.nodeCount) ∧
      0 ≤ d.changeFraction base target ∧ d.changeFraction base target ≤ 2 ∧
      (d.changeFraction base target ≤ 1 ↔
        min d.classesAdded.length d.classesRemoved.length ≤ (keptClasses base target).length) := by
  let d := compare base target i j
  have hchanged : d.changedClasses + (keptClasses base target).length =
      max base.nodeCount target.nodeCount + min d.classesAdded.length d.classesRemoved.length :=
    changedClasses_add_kept htarget.wellFormed i j
  have hremoved : d.classesRemoved.length ≤ base.nodeCount := (nodeCount_eq base target).symm ▸ Nat.le_add_left ..
  refine ⟨d, rfl, rfl, changeFraction_nonneg d base target, ?_⟩
  by_cases htotal : max base.nodeCount target.nodeCount = 0
  · rw [changeFraction, if_pos htotal]
    refine ⟨by norm_num, iff_of_true (by norm_num) ?_⟩
    omega
  · have htwo := changeFraction_le_iff d htotal 2
    have hone := changeFraction_le_iff d htotal 1
    push_cast at htwo hone
    rw [htwo, hone]
    omega

/-- One class came, one went, one moved and one stayed: the fraction is one. -/
theorem changeFraction_le_one_relayered : relayered.Reachable ∧
    ∃ d, compare? (some layered) (some relayered) "old" "new" = .ok d ∧
      d.changedClasses = 3 ∧ d.changeFraction layered relayered ≤ 1 := by
  have htarget : relayered.Reachable := ⟨_, _, _, rfl⟩
  obtain ⟨d, hd, -, -, -, hle⟩ := changeFraction_le_one_iff layered htarget "old" "new"
  obtain rfl : compare layered relayered "old" "new" = d := Except.ok.inj hd
  exact ⟨htarget, _, hd, by decide, hle.mpr (by decide)⟩

/-- A project with one class. -/
def oneClass (name : Text) : ClassGraph :=
  (ClassGraph.new "/p" ⟨9, 9⟩).runCalls [.addNode ⟨name, "p", "/p/m/A", "m"⟩, .freeze 5]

/-- When the only class gives way to another one, the fraction is two. -/
theorem changeFraction_replaced : (oneClass "p.A").Reachable ∧ (oneClass "p.B").Reachable ∧
    (compare (oneClass "p.A") (oneClass "p.B") "old" "new").changeFraction (oneClass "p.A") (oneClass "p.B") = 2 := by
  have hchanged : (compare (oneClass "p.A") (oneClass "p.B") "old" "new").changedClasses = 2 := by decide
  have htotal : max (oneClass "p.A").nodeCount (oneClass "p.B").nodeCount = 1 := by decide
  refine ⟨⟨_, _, _, rfl⟩, ⟨_, _, _, rfl⟩, ?_⟩
  rw [changeFraction, htotal, hchanged]
  norm_num

end ClassAtlas.GraphDiff
