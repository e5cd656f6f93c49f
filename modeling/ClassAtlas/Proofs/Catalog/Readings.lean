import ClassAtlas.Proofs.Catalog.Scan
import Mathlib.Data.List.Nodup

namespace ClassAtlas

namespace TextCache

variable {d : Disk} {c : TextCache}

/-- The cache after files were read through it, from the first to the last. -/
def afterReading (d : Disk) (paths : List Text) (c : TextCache) : TextCache :=
  paths.foldl (fun c path => (c.read d path).2) c

/-- Files may be read in two parts. -/
theorem afterReading_append (paths more : List Text) :
    c.afterReading d (paths ++ more) = (c.afterReading d paths).afterReading d more :=
  List.foldl_append

/-- A cache that stands on the disk still does after readings, failed ones included. -/
theorem Agrees.afterReading (h : c.Agrees d) (paths : List Text) : (c.afterReading d paths).Agrees d := by
  induction paths generalizing c with
  | nil => exact h
  | cons path rest ih => exact ih (h.read path).2

/-- A new cache stands on every disk. -/
theorem agrees_ofSize (d : Disk) (size : Int) : (ofSize size).Agrees d := by
  intro path t ht
  simp [find?, ofSize] at ht

/-- Putting the content of a file into the cache is reading the file. -/
theorem Agrees.put_eq_read (h : c.Agrees d) {path t : Text} (ht : d.readFile path = .ok t) :
    c.put path t = (c.read d path).2 := by
  unfold TextCache.read
  cases hfind : c.find? path with
  | none => rw [ht]
  | some t' =>
    obtain rfl := Except.ok.inj ((h path t' hfind).symm.trans ht)
    rfl

/-- A cache of the given size at any moment: each entry is the content of its file, no path has two
of them, and there are no more of them than the size allows. -/
structure Faithful (d : Disk) (size : Int) (c : TextCache) : Prop where
  current : ∀ e ∈ c.texts, d.readFile e.1 = .ok e.2
  distinct : (c.texts.map Prod.fst).Nodup
  capacity : (c.capacity : Int) = if size ≤ 0 then 4096 else size
  bounded : c.size ≤ c.capacity

/-- A new cache is faithful. -/
theorem faithful_ofSize (d : Disk) (size : Int) : (ofSize size).Faithful d size where
  current := by
    intro e he
    simp [ofSize] at he
  distinct := List.nodup_nil
  capacity := by
    unfold ofSize defaultCapacity
    split
    · rfl
    · exact Int.toNat_of_nonneg (by omega)
  bounded := Nat.zero_le _

variable {size : Int}

/-- A cache stays faithful when the content of a file is put into it, whether the path is new or not. -/
theorem Faithful.put (h : c.Faithful d size) {path t : Text} (ht : d.readFile path = .ok t) :
    (c.put path t).Faithful d size where
  current := by
    intro e he
    rcases List.mem_cons.mp (List.mem_of_mem_take he) with rfl | hold
    · exact ht
    · exact h.current e (List.mem_of_mem_filter hold)
  distinct := by
    have hold : ((c.texts.filter (·.1 != path)).map Prod.fst).Nodup :=
      h.distinct.sublist (List.filter_sublist.map _)
    have hnew : path ∉ (c.texts.filter (·.1 != path)).map Prod.fst := by simp
    have hall : (((path, t) :: c.texts.filter (·.1 != path)).map Prod.fst).Nodup :=
      List.nodup_cons.mpr ⟨hnew, hold⟩
    exact hall.sublist ((List.take_sublist ..).map _)
  capacity := h.capacity
  bounded := List.length_take_le ..

/-- A faithful cache stands on the disk. -/
theorem Faithful.agrees (h : c.Faithful d size) : c.Agrees d := by
  intro path t ht
  obtain ⟨front, back, hsplit, -⟩ := List.lookup_eq_some_iff.mp ht
  exact h.current (path, t) (hsplit ▸ List.mem_append_right _ List.mem_cons_self)

/-- A cache stays faithful when a file is read through it, even if this fails. -/
theorem Faithful.read (h : c.Faithful d size) (path : Text) : (c.read d path).2.Faithful d size := by
  cases hdisk : d.readFile path with
  | ok t =>
    rw [← h.agrees.put_eq_read hdisk]
    exact h.put hdisk
  | error e =>
    -- what cannot be read is not in the cache either, so nothing happens
    have hnone : c.find? path = none := by
      cases hfind : c.find? path with
      | none => rfl
      | some t =>
        rw [h.agrees path t hfind] at hdisk
        contradiction
    simp only [TextCache.read, hnone, hdisk]
    exact h

/-- A cache stays faithful through all readings. -/
theorem Faithful.afterReading (h : c.Faithful d size) (paths : List Text) :
    (c.afterReading d paths).Faithful d size := by
  induction paths generalizing c with
  | nil => exact h
  | cons path rest ih => exact ih (h.read path)

end TextCache

/-- Whatever the cache holds at the start, if only it stands on the disk, the computation comes to
the same result by the same readings. `close` puts the result and the last cache together. -/
def Settled (d : Disk) {σ α : Type} (close : σ → TextCache → α) (f : TextCache → α) : Prop :=
  ∃ s paths, ∀ cache, cache.Agrees d → f cache = close s (cache.afterReading d paths)

namespace Settled

variable {d : Disk} {σ τ α β : Type} {close : σ → TextCache → α} {close' : τ → TextCache → β}

/-- What does not read is settled. -/
theorem pure (close : σ → TextCache → α) (s : σ) : Settled d close (close s) :=
  ⟨s, [], fun _ _ => rfl⟩

/-- What goes on from a settled computation, and is settled from each of its results, is settled. -/
theorem bind {f : TextCache → α} {g : α → β} (hf : Settled d close f)
    (hg : ∀ s, Settled d close' fun cache => g (close s cache)) :
    Settled d close' fun cache => g (f cache) := by
  obtain ⟨s, paths, hf⟩ := hf
  obtain ⟨r, more, hg⟩ := hg s
  refine ⟨r, paths ++ more, ?_⟩
  intro cache hcache
  have hlater := hg _ (hcache.afterReading paths)
  dsimp only at hlater ⊢
  rw [hf cache hcache, hlater, TextCache.afterReading_append]

/-- A settled result may be changed. -/
theorem map {f : TextCache → σ × TextCache} (hf : Settled d Prod.mk f) (g : σ → τ) :
    Settled d Prod.mk fun cache => (f cache).map g id :=
  hf.bind (g := Prod.map g id) fun s => .pure Prod.mk (g s)

/-- A fold over settled steps is settled. -/
theorem foldl {ω : Type} {step : α → ω → α}
    (hstep : ∀ w s, Settled d close fun cache => step (close s cache) w) (ws : List ω) (s : σ) :
    Settled d close fun cache => ws.foldl step (close s cache) := by
  induction ws generalizing s with
  | nil => exact .pure close s
  | cons w rest ih => exact (hstep w s).bind (g := fun a => rest.foldl step a) ih

/-- Reading a file is settled by the disk. -/
theorem read (d : Disk) (path : Text) : Settled d Prod.mk (TextCache.read d path) := by
  refine ⟨(d.readFile path).mapError (⟨path, ·⟩), [path], ?_⟩
  intro cache hcache
  exact Prod.ext (hcache.read path).1 rfl

/-- Reading the text of a class is settled by the disk; for an unknown class nothing is read. -/
theorem text (c : Catalog) (d : Disk) (name : Text) : Settled d Prod.mk (c.text d name) := by
  cases hunit : c.unit? name with
  | none =>
    have htext : c.text d name = Prod.mk (.error (.classNotFound name)) := by
      funext cache
      exact Catalog.text_of_no_unit hunit d cache
    rw [htext]
    exact .pure Prod.mk _
  | some u =>
    have htext : c.text d name = fun cache =>
        (cache.read d u.path).map (·.mapError SourceError.unreadable) id := by
      funext cache
      exact Catalog.text_of_unit hunit d cache
    rw [htext]
    exact (read d u.path).map _

end Settled

namespace TreeScan

variable {d : Disk} {root extension : Text}

/-- What was collected, with another cache. -/
def Progress.withCache (p : Progress) (cache : TextCache) : Progress := { p with cache }

/-- Taking a file into account is settled by the disk. -/
theorem settled_index (path : Text) (p : Progress) :
    Settled d Progress.withCache fun cache => index d root extension path (p.withCache cache) := by
  cases hread : d.readFile path with
  | error e =>
    refine ⟨index d root extension path p, [], ?_⟩
    intro cache _
    simp only [index, hread]
    rfl
  | ok t =>
    by_cases hpackage : (Source.package t).isEmpty = true
    · refine ⟨index d root extension path p, [], ?_⟩
      intro cache _
      simp only [index, hread, hpackage, if_true]
      rfl
    · refine ⟨index d root extension path p, [path], ?_⟩
      intro cache hcache
      have hput : (p.withCache cache).cache.put path t = cache.afterReading d [path] :=
        hcache.put_eq_read hread
      simp only [index, hread, hpackage, if_false, Bool.false_eq_true, hput]
      rfl

/-- Taking an entry of the walk into account is settled by the disk. -/
theorem settled_take (v : Visit) (p : Progress) :
    Settled d Progress.withCache fun cache => take d root extension v (p.withCache cache) := by
  unfold take
  split
  · exact .pure _ p
  · split
    · exact settled_index v.path p
    · exact .pure _ p

/-- What a walk gives when the cache is put in at its end. -/
def closeWalk (result : Except Interruption Progress) (cache : TextCache) :
    Except Interruption Progress := result.map (·.withCache cache)

/-- A walk is settled by the disk, wherever the checks stop it. -/
theorem settled_collect (d : Disk) (root extension : Text) (visits : List Visit) (budget : Budget)
    (p : Progress) :
    Settled d closeWalk fun cache => collect d root extension visits budget (p.withCache cache) := by
  induction visits generalizing budget p with
  | nil => exact Settled.pure closeWalk (.ok p)
  | cons v rest ih =>
    unfold collect
    cases budget.check with
    | error i => exact Settled.pure closeWalk (.error i)
    | ok budget' =>
      exact (settled_take v p).bind (g := collect d root extension rest budget') (ih budget')

end TreeScan

/-- With a cache of whatever size, a scan fails alike or gives the same catalog by the same readings. -/
theorem Catalog.scan_settled (d : Disk) (options : ScanOptions) (budget : Budget) (root : Text) :
    (∃ e, ∀ size, scan d { options with cacheSize := size } budget root = .error e) ∨
    ∃ c paths, ∀ size, scan d { options with cacheSize := size } budget root =
      .ok (c, (TextCache.ofSize size).afterReading d paths) := by
  cases hvalid : TreeScan.validRoot d root with
  | error e => exact Or.inl ⟨.root e, fun size => by simp only [scan, hvalid]⟩
  | ok path =>
    obtain ⟨result, paths, hcollect⟩ := TreeScan.settled_collect d path options.extension
      (TreeScan.visits d options.ignored path) budget ⟨UnitMap.empty, [], {}, TextCache.ofSize 0⟩
    have hwalk : ∀ size, TreeScan.collect d path options.extension
        (TreeScan.visits d options.ignored path) budget
        ⟨UnitMap.empty, [], {}, TextCache.ofSize size⟩ =
          TreeScan.closeWalk result ((TextCache.ofSize size).afterReading d paths) :=
      fun size => hcollect (TextCache.ofSize size) (TextCache.agrees_ofSize d size)
    cases result with
    | error i =>
      refine Or.inl ⟨.interrupted i, ?_⟩
      intro size
      simp only [scan, hvalid, hwalk]
      rfl
    | ok p =>
      refine Or.inr ⟨⟨path, options.extension, p.units, TreeScan.modules d options.ignored path,
        p.readErrors, { p.stats with registered := p.units.size }⟩, paths, ?_⟩
      intro size
      simp only [scan, hvalid, hwalk]
      rfl

end ClassAtlas
