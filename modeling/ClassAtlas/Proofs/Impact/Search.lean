import ClassAtlas.Impact.Analysis
import Mathlib.Order.Bounds.Basic

namespace ClassAtlas.Reverse

/-- A way of a number of steps from a name down to a seed. -/
inductive Way (above : Text → List Text) (seeds : List Text) : Nat → Text → Prop
  | seed {s : Text} (hs : s ∈ seeds) : Way above seeds 0 s
  | step {n : Nat} {a b : Text} (hrest : Way above seeds n a) (hb : b ∈ above a) :
      Way above seeds (n + 1) b

/-- The number of steps in the shortest ways from a name to a seed. -/
def Distance (above : Text → List Text) (seeds : List Text) (name : Text) (d : Nat) : Prop :=
  IsLeast {n | Way above seeds n name} d

variable {names seeds seen : List Text} {above : Text → List Text} {limit : Nat}
  {queue : List (Text × Nat)}

/-- The fresh names are those found that are known and not yet seen. -/
theorem mem_fresh_iff {found : List Text} {b : Text} :
    b ∈ fresh names seen found ↔ b ∈ found ∧ b ∈ names ∧ b ∉ seen := by
  simp [fresh]

/-- A seed has no distance. -/
theorem distance_zero {s : Text} (hs : s ∈ seeds) : Distance above seeds s 0 :=
  ⟨.seed hs, fun n _ => Nat.zero_le n⟩

/-- Only seeds have no distance. -/
theorem Distance.mem_seeds {name : Text} (h : Distance above seeds name 0) : name ∈ seeds := by
  have hway : Way above seeds 0 name := h.1
  cases hway with
  | seed hs => exact hs

/-- A map that takes each step to a step or to none at all takes ways to ways. -/
theorem Way.map {f : Text → Text} {above' : Text → List Text} {seeds' : List Text}
    (hseeds : ∀ s ∈ seeds, f s ∈ seeds')
    (hstep : ∀ a, ∀ b ∈ above a, f b = f a ∨ f b ∈ above' (f a)) {n : Nat} {name : Text}
    (hway : Way above seeds n name) : ∃ k, k ≤ n ∧ Way above' seeds' k (f name) := by
  induction hway with
  | seed hs => exact ⟨0, Nat.le_refl 0, .seed (hseeds _ hs)⟩
  | @step n a b _ hb ih =>
    obtain ⟨k, hk, hway⟩ := ih
    rcases hstep a b hb with hsame | habove
    · exact ⟨k, by omega, hsame ▸ hway⟩
    · exact ⟨k + 1, by omega, .step hway habove⟩

/-- A way from a name that was not seen leaves what was seen somewhere. -/
theorem Way.exists_crossing (hseeds : ∀ s ∈ seeds, s ∈ seen) {k : Nat} {b : Text}
    (hway : Way above seeds k b) (hb : b ∉ seen) :
    ∃ j a c, Way above seeds j a ∧ j + 1 ≤ k ∧ a ∈ seen ∧ c ∈ above a ∧ c ∉ seen := by
  induction hway with
  | seed hs => exact absurd (hseeds _ hs) hb
  | @step n a b hrest hstep ih =>
    by_cases ha : a ∈ seen
    · exact ⟨n, a, b, hrest, Nat.le_refl _, ha, hstep, hb⟩
    · obtain ⟨j, a', c, hway, hle, hcross⟩ := ih ha
      exact ⟨j, a', c, hway, by omega, hcross⟩

/-- What the search keeps. The queue holds names with their distances, which differ by at most one
and do not decrease, and everything above a name seen is seen as well, unless the name is still in
the queue or too far away. -/
structure Frontier (above : Text → List Text) (limit : Nat) (seeds : List Text)
    (queue : List (Text × Nat)) (seen : List Text) : Prop where
  least : ∀ p ∈ queue, Distance above seeds p.1 p.2
  close : queue.Pairwise fun p q => p.2 ≤ q.2 ∧ q.2 ≤ p.2 + 1
  seeds_seen : ∀ s ∈ seeds, s ∈ seen
  spread : ∀ a ∈ seen, (∃ n, (a, n) ∈ queue) ∨
    (∃ n, Distance above seeds a n ∧ limit ≠ 0 ∧ limit ≤ n) ∨ ∀ b ∈ above a, b ∈ seen

namespace Frontier

/-- The search starts with the seeds, which it has seen. -/
theorem start (above : Text → List Text) (limit : Nat) (seeds : List Text) :
    Frontier above limit seeds (seeds.map fun s => (s, 0)) seeds where
  least := by
    intro p hp
    obtain ⟨s, hs, rfl⟩ := List.mem_map.mp hp
    exact distance_zero hs
  close := by
    rw [List.pairwise_map]
    exact List.pairwise_of_forall fun _ _ => ⟨Nat.le_refl 0, Nat.zero_le _⟩
  seeds_seen _ hs := hs
  spread a ha := Or.inl ⟨0, List.mem_map.mpr ⟨a, ha, rfl⟩⟩

/-- A way from a name that was not seen is longer than some distance in the queue, or longer than
allowed. -/
theorem way_gt (h : Frontier above limit seeds queue seen) {k : Nat} {b : Text}
    (hway : Way above seeds k b) (hb : b ∉ seen) :
    (∃ p ∈ queue, p.2 + 1 ≤ k) ∨ (limit ≠ 0 ∧ limit + 1 ≤ k) := by
  obtain ⟨j, a, c, hj, hle, ha, hca, hc⟩ := hway.exists_crossing h.seeds_seen hb
  rcases h.spread a ha with ⟨n, hn⟩ | ⟨n, hn, hlimit, hfar⟩ | hall
  · have hnj : n ≤ j := (h.least _ hn).2 hj
    exact Or.inl ⟨(a, n), hn, by omega⟩
  · have hnj : n ≤ j := hn.2 hj
    exact Or.inr ⟨hlimit, by omega⟩
  · exact absurd (hall c hca) hc

variable {name : Text} {distance : Nat} {rest : List (Text × Nat)}

/-- No name in the queue is nearer than the first, or farther by more than one step. -/
theorem head_le (h : Frontier above limit seeds ((name, distance) :: rest) seen)
    {p : Text × Nat} (hp : p ∈ (name, distance) :: rest) :
    distance ≤ p.2 ∧ p.2 ≤ distance + 1 := by
  rcases List.mem_cons.mp hp with rfl | hp
  · exact ⟨Nat.le_refl _, Nat.le_succ _⟩
  · exact (List.pairwise_cons.mp h.close).1 p hp

/-- A name that is too far away leaves the queue. -/
theorem skip (h : Frontier above limit seeds ((name, distance) :: rest) seen) (hlimit : limit ≠ 0)
    (hfar : limit ≤ distance) : Frontier above limit seeds rest seen where
  least p hp := h.least p (List.mem_cons_of_mem _ hp)
  close := (List.pairwise_cons.mp h.close).2
  seeds_seen := h.seeds_seen
  spread := by
    intro a ha
    rcases h.spread a ha with ⟨n, hn⟩ | hrest
    · rcases List.mem_cons.mp hn with heq | hn
      · obtain ⟨rfl, rfl⟩ := Prod.mk.inj heq
        exact Or.inr (Or.inl ⟨n, h.least _ (List.mem_cons_self ..), hlimit, hfar⟩)
      · exact Or.inl ⟨n, hn⟩
    · exact Or.inr hrest

/-- What is not seen above the first name in the queue is one step further away. -/
theorem distance_fresh (h : Frontier above limit seeds ((name, distance) :: rest) seen)
    (hnear : limit = 0 ∨ distance < limit) {b : Text} (hb : b ∈ fresh names seen (above name)) :
    Distance above seeds b (distance + 1) := by
  obtain ⟨habove, -, hnew⟩ := mem_fresh_iff.mp hb
  refine ⟨Way.step (h.least _ (List.mem_cons_self ..)).1 habove, ?_⟩
  intro k (hway : Way above seeds k b)
  rcases h.way_gt hway hnew with ⟨p, hp, hle⟩ | ⟨hlimit, hle⟩
  · have hhead := (h.head_le hp).1
    omega
  · omega

/-- The names found above the first name in the queue go behind the others. -/
theorem expand (h : Frontier above limit seeds ((name, distance) :: rest) seen)
    (hnear : limit = 0 ∨ distance < limit) (hnames : ∀ b ∈ above name, b ∈ names) :
    Frontier above limit seeds
      (rest ++ (fresh names seen (above name)).map fun n => (n, distance + 1))
      (fresh names seen (above name) ++ seen) where
  least := by
    intro p hp
    rcases List.mem_append.mp hp with hp | hp
    · exact h.least p (List.mem_cons_of_mem _ hp)
    · obtain ⟨b, hb, rfl⟩ := List.mem_map.mp hp
      exact h.distance_fresh hnear hb
  close := by
    rw [List.pairwise_append]
    refine ⟨(List.pairwise_cons.mp h.close).2, ?_, ?_⟩
    · rw [List.pairwise_map]
      exact List.pairwise_of_forall fun _ _ => ⟨Nat.le_refl _, Nat.le_succ _⟩
    · intro p hp q hq
      obtain ⟨b, -, rfl⟩ := List.mem_map.mp hq
      have hhead := h.head_le (List.mem_cons_of_mem _ hp)
      exact ⟨hhead.2, by omega⟩
  seeds_seen s hs := List.mem_append_right _ (h.seeds_seen s hs)
  spread := by
    intro a ha
    rcases List.mem_append.mp ha with hnew | hold
    · exact Or.inl ⟨distance + 1, List.mem_append_right _ (List.mem_map.mpr ⟨a, hnew, rfl⟩)⟩
    · rcases h.spread a hold with ⟨n, hn⟩ | hfar | hall
      · rcases List.mem_cons.mp hn with heq | hn
        · obtain ⟨rfl, rfl⟩ := Prod.mk.inj heq
          refine Or.inr (Or.inr fun b hb => ?_)
          by_cases hseen : b ∈ seen
          · exact List.mem_append_right _ hseen
          · exact List.mem_append_left _ (mem_fresh_iff.mpr ⟨hb, hnames b hb, hseen⟩)
        · exact Or.inl ⟨n, List.mem_append_left _ hn⟩
      · exact Or.inr (Or.inl hfar)
      · exact Or.inr (Or.inr fun b hb => List.mem_append_right _ (hall b hb))

end Frontier

/-- A name stands with its distance and with the next name on a shortest way. -/
structure Nearest (above : Text → List Text) (limit : Nat) (seeds : List Text) (r : Reached) :
    Prop where
  least : Distance above seeds r.name r.distance
  above_through : r.name ∈ above r.through
  through : ∃ d, r.distance = d + 1 ∧ Distance above seeds r.through d
  within : limit = 0 ∨ r.distance ≤ limit

private theorem near_of_not_skipped {distance : Nat}
    (h : ¬(limit != 0 && decide (limit ≤ distance)) = true) : limit = 0 ∨ distance < limit := by
  simp only [Bool.and_eq_true, bne_iff_ne, ne_eq, decide_eq_true_eq, not_and] at h
  omega

/-- Everything found is new, and found at its distance. -/
theorem nearest_of_mem_search (hnames : ∀ a, ∀ b ∈ above a, b ∈ names)
    (h : Frontier above limit seeds queue seen) {r : Reached}
    (hr : r ∈ search names above limit queue seen) :
    r.name ∉ seen ∧ Nearest above limit seeds r := by
  fun_induction search names above limit queue seen with
  | case1 => simp at hr
  | case2 seen name distance rest hskip ih =>
    simp only [Bool.and_eq_true, bne_iff_ne, ne_eq, decide_eq_true_eq] at hskip
    exact ih (h.skip hskip.1 hskip.2) hr
  | case3 seen name distance rest hskip ih =>
    have hnear := near_of_not_skipped hskip
    rcases List.mem_append.mp hr with hr | hr
    · obtain ⟨b, hb, rfl⟩ := List.mem_map.mp hr
      obtain ⟨habove, -, hnew⟩ := mem_fresh_iff.mp hb
      refine ⟨hnew, h.distance_fresh hnear hb, habove, ?_, ?_⟩
      · exact ⟨distance, rfl, h.least _ (List.mem_cons_self ..)⟩
      · rcases hnear with hzero | hlt
        · exact Or.inl hzero
        · exact Or.inr hlt
    · obtain ⟨hnew, hnearest⟩ := ih (h.expand hnear (hnames name)) hr
      exact ⟨fun hseen => hnew (List.mem_append_right _ hseen), hnearest⟩

/-- Nothing within the limit is missed: when the queue is empty, a way from a name that was not
seen would be longer than allowed. -/
theorem exists_mem_search (hnames : ∀ a, ∀ b ∈ above a, b ∈ names)
    (h : Frontier above limit seeds queue seen) {b : Text} {d : Nat} (hb : b ∉ seen)
    (hd : Way above seeds d b) (hwithin : limit = 0 ∨ d ≤ limit) :
    ∃ r ∈ search names above limit queue seen, r.name = b := by
  fun_induction search names above limit queue seen with
  | case1 =>
    rcases h.way_gt hd hb with ⟨p, hp, -⟩ | ⟨hlimit, hfar⟩
    · simp at hp
    · omega
  | case2 seen name distance rest hskip ih =>
    simp only [Bool.and_eq_true, bne_iff_ne, ne_eq, decide_eq_true_eq] at hskip
    exact ih (h.skip hskip.1 hskip.2) hb
  | case3 seen name distance rest hskip ih =>
    have hnear := near_of_not_skipped hskip
    by_cases hfresh : b ∈ fresh names seen (above name)
    · exact ⟨⟨b, distance + 1, name⟩, List.mem_append_left _ (List.mem_map.mpr ⟨b, hfresh, rfl⟩),
        rfl⟩
    · obtain ⟨r, hr, hname⟩ := ih (h.expand hnear (hnames name)) (by simp [hfresh, hb])
      exact ⟨r, List.mem_append_right _ hr, hname⟩

/-- The search finds no name twice, wherever it has come to. -/
theorem nodup_search (hnames : ∀ a, ∀ b ∈ above a, b ∈ names) (hnodup : ∀ a, (above a).Nodup)
    (h : Frontier above limit seeds queue seen) :
    ((search names above limit queue seen).map (·.name)).Nodup := by
  fun_induction search names above limit queue seen with
  | case1 => exact List.nodup_nil
  | case2 seen name distance rest hskip ih =>
    simp only [Bool.and_eq_true, bne_iff_ne, ne_eq, decide_eq_true_eq] at hskip
    exact ih (h.skip hskip.1 hskip.2)
  | case3 seen name distance rest hskip ih =>
    have hexpand := h.expand (near_of_not_skipped hskip) (hnames name)
    rw [List.map_append, List.map_map, List.nodup_append]
    refine ⟨?_, ih hexpand, ?_⟩
    · have hfresh : (fresh names seen (above name)).Nodup := (hnodup name).filter _
      simpa [Function.comp_def] using hfresh
    · -- what is found later was not seen, so it is not among the names found here
      rintro a ha b hb rfl
      obtain ⟨n, hn, rfl⟩ := List.mem_map.mp ha
      obtain ⟨r, hr, hname⟩ := List.mem_map.mp hb
      have hnew := (nearest_of_mem_search hnames hexpand hr).1
      rw [hname] at hnew
      exact hnew (List.mem_append_left _ hn)

/-- The closure of some seeds holds exactly the other names within the limit, each once with its
distance. -/
theorem mem_closure_iff (hnames : ∀ a, ∀ b ∈ above a, b ∈ names) {b : Text} :
    (∃ r ∈ closure names above limit seeds, r.name = b) ↔
      b ∉ seeds ∧ ∃ d, Distance above seeds b d ∧ (limit = 0 ∨ d ≤ limit) := by
  have hstart := Frontier.start above limit seeds
  constructor
  · rintro ⟨r, hr, rfl⟩
    obtain ⟨hnew, hnearest⟩ := nearest_of_mem_search hnames hstart hr
    exact ⟨hnew, r.distance, hnearest.least, hnearest.within⟩
  · rintro ⟨hnew, d, hd, hwithin⟩
    exact exists_mem_search hnames hstart hnew hd.1 hwithin

/-- Without a limit, everything is found from which a way leads to a seed. -/
theorem mem_closure_zero_iff (hnames : ∀ a, ∀ b ∈ above a, b ∈ names) {b : Text} :
    (∃ r ∈ closure names above 0 seeds, r.name = b) ↔ b ∉ seeds ∧ ∃ n, Way above seeds n b := by
  constructor
  · intro hfound
    obtain ⟨hnew, d, hd, -⟩ := (mem_closure_iff hnames).mp hfound
    exact ⟨hnew, d, hd.1⟩
  · rintro ⟨hnew, n, hway⟩
    exact exists_mem_search hnames (Frontier.start above 0 seeds) hnew hway (Or.inl rfl)

/-- Every name found stands with its distance, which is the shortest one. -/
theorem nearest_of_mem_closure (hnames : ∀ a, ∀ b ∈ above a, b ∈ names) {r : Reached}
    (hr : r ∈ closure names above limit seeds) : Nearest above limit seeds r :=
  (nearest_of_mem_search hnames (Frontier.start above limit seeds) hr).2

/-- No name is found twice. -/
theorem nodup_closure (hnames : ∀ a, ∀ b ∈ above a, b ∈ names) (hnodup : ∀ a, (above a).Nodup) :
    ((closure names above limit seeds).map (·.name)).Nodup :=
  nodup_search hnames hnodup (Frontier.start above limit seeds)

end ClassAtlas.Reverse
