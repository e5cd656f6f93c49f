import ClassAtlas.Proofs.Snapshot.Session
import ClassAtlas.Proofs.Snapshot.Shelf

namespace ClassAtlas.Snapshot

namespace Call

/-- What a call saves if it succeeds. -/
def saved? : Call → Option Saved
  | save _ (some graph) label now => some ⟨graph, label, now⟩
  | _ => none

/-- The call is to load a snapshot. -/
def Loading : Call → Prop
  | load .. | loadLatest .. => True
  | _ => False

/-- The call is to load a snapshot with these names. -/
def Seeks (project id : Text) : Call → Prop
  | load _ id' => id = id'
  | loadLatest _ project' => project = project'
  | _ => False

/-- The failure of a call to load that does not look into the store. -/
def refusal? : Call → Option SnapshotError
  | load none _ => some (.noContext .load)
  | load (some _) [] => some (.noId .load)
  | loadLatest none _ => some (.noContext .loadLatest)
  | loadLatest (some _) [] => some .noProject
  | _ => none

end Call

/-- A graph and a record are those of one save. -/
structure LoadedFrom (x : Saved) (g : ClassGraph) (info : SnapshotInfo) : Prop where
  graph : GraphDocument.Restores x.graph g
  record : info = x.rereadInfo
  record_of_isValid : Utf8.isValid x.label = true → info = x.info

/-- How a call to load may end: it gets the graph and the record of one save, or finds nothing. -/
inductive Loads (origin : Saved → Prop) (call : Call) :
    Except SnapshotError (ClassGraph × SnapshotInfo) → Prop
  | refused {e : SnapshotError} (h : call.refusal? = some e) : Loads origin call (.error e)
  | missing {e : SnapshotError} (h : call.refusal? = none) (hfault : e.fault? = some .notFound) :
      Loads origin call (.error e)
  | found {x : Saved} {g : ClassGraph} {info : SnapshotInfo} (h : call.refusal? = none)
      (hx : origin x) (hseeks : call.Seeks x.project x.id) (hloaded : LoadedFrom x g info) :
      Loads origin call (.ok (g, info))

/-- With more origins a call may still end as it does. -/
theorem Loads.mono {origin origin' : Saved → Prop} {call : Call}
    {result : Except SnapshotError (ClassGraph × SnapshotInfo)}
    (h : Loads origin call result) (hle : ∀ x, origin x → origin' x) :
    Loads origin' call result := by
  cases h with
  | refused h => exact .refused h
  | missing h hfault => exact .missing h hfault
  | found h hx hseeks hloaded => exact .found h (hle _ hx) hseeks hloaded

namespace Represents

variable {s : SnapshotStore} {v : Shelf}

/-- A call to load looks up the project of the name, unless it is refused before. The store is not
changed. -/
theorem begin_load (h : Represents s v) (context : Option Budget) (i : Text) :
    (Call.load context i).begin s = (s, match (Call.load context i).refusal? with
      | some e => .done (.loaded (.error e))
      | none =>
        (v.held i).elim (.done (.loaded (.error (.lookup i .notFound))))
          fun x => .reading x.project i) := by
  cases context with
  | none => rfl
  | some budget =>
    cases i with
    | nil => rfl
    | cons b i =>
      rw [Call.begin, h.findProject_eq .load budget (List.cons_ne_nil b i)]
      cases v.held (b :: i) <;> rfl

/-- A call to load the latest snapshot looks up its name, unless it is refused before. The store is not
changed. -/
theorem begin_loadLatest (h : Represents s v) (context : Option Budget) (p : Text) :
    (Call.loadLatest context p).begin s = (s, match (Call.loadLatest context p).refusal? with
      | some e => .done (.loaded (.error e))
      | none =>
        (v.latest p).elim (.done (.loaded (.error (.latest p .notFound))))
          fun i => .reading p i) := by
  cases context with
  | none => rfl
  | some budget =>
    cases p with
    | nil => rfl
    | cons b p =>
      rw [Call.begin, h.findLatest_eq budget (List.cons_ne_nil b p)]
      cases v.latest (b :: p) <;> rfl

/-- A call to delete fails at once or knows the project of a snapshot that is held. Nothing is deleted
yet. -/
theorem begin_delete (h : Represents s v) (context : Option Budget) (i : Text) :
    (∃ e, (Call.delete context i).begin s = (s, .done (.deleted (.error e)))) ∨
      ∃ x, v.held i = some x ∧ (Call.delete context i).begin s = (s, .removing x.project i) := by
  cases context with
  | none => exact .inl ⟨_, rfl⟩
  | some budget =>
    cases i with
    | nil => exact .inl ⟨_, rfl⟩
    | cons b i =>
      rw [Call.begin, h.findProject_eq .delete budget (List.cons_ne_nil b i)]
      cases v.held (b :: i) with
      | none => exact .inl ⟨_, rfl⟩
      | some x => exact .inr ⟨x, rfl, rfl⟩

/-- A call to save fails at once and leaves the store alone, or has written all that it saves. -/
theorem begin_save (h : Represents s v) (context : Option Budget) (graph : Option ClassGraph)
    (label : Text) (now : Int) :
    (∃ e, (Call.save context graph label now).begin s = (s, .done (.saved (.error e)))) ∨
      ∃ x : Saved, (Call.save context graph label now).saved? = some x ∧
        (Call.save context graph label now).begin s =
          (Snapshot.write s x.info x.graph, .done (.saved (.ok x.info))) := by
  cases context with
  | none => exact .inl ⟨_, rfl⟩
  | some budget =>
    cases graph with
    | none => exact .inl ⟨_, rfl⟩
    | some g =>
      cases hcheck : budget.check with
      | error cause =>
        refine .inl ⟨.interrupted cause, ?_⟩
        simp [Call.begin, Snapshot.save, hcheck, bind, Except.bind, Except.mapError]
      | ok budget' =>
        refine .inr ⟨⟨g, label, now⟩, rfl, ?_⟩
        simp [Call.begin, Snapshot.save, hcheck, bind, Except.bind, Except.mapError, h.isOpen]
        rfl

end Represents

namespace Task

/-- The call has saved this. -/
def Executes (t : Task) (x : Saved) : Prop :=
  t.call.saved? = some x ∧ t.stage = .done (.saved (.ok x.info))

/-- What holds of a call at each of its stages: it removes only what was saved once, it reads only
what it was asked for, and if it loads, its answer is right. -/
def Sound (origin : Saved → Prop) (t : Task) : Prop :=
  match t.stage with
  | .waiting => True
  | .removing project id => ¬ t.call.Loading ∧ ∃ x, origin x ∧ x.project = project ∧ x.id = id
  | .reading project id => t.call.refusal? = none ∧ t.call.Seeks project id
  | .done answer => t.call.Loading → ∃ result, answer = .loaded result ∧ Loads origin t.call result

variable {origin origin' : Saved → Prop} {t : Task}

/-- More origins leave a call sound. -/
theorem Sound.mono (h : t.Sound origin) (hle : ∀ x, origin x → origin' x) : t.Sound origin' := by
  obtain ⟨call, stage⟩ := t
  cases stage with
  | waiting => exact h
  | removing project id =>
    obtain ⟨hcall, x, hx, hnames⟩ := h
    exact ⟨hcall, x, hle x hx, hnames⟩
  | reading project id => exact h
  | done answer =>
    intro hcall
    obtain ⟨result, rfl, hloads⟩ := h hcall
    exact ⟨result, rfl, hloads.mono hle⟩

end Task

/-- What may be saved: it can be read back, and the same name is given only in the same project. -/
structure Savable (saves : Saved → Prop) : Prop where
  storable : ∀ {x}, saves x → x.Storable
  root_eq : ∀ {x y}, saves x → saves y → x.id = y.id → x.graph.root = y.graph.root

/-- The held snapshot with the name of another saved one is of the same project. -/
theorem Savable.project_eq {saves origin : Saved → Prop} (h : Savable saves) {v : Shelf}
    (hv : v.Sound origin) (horigin : ∀ x, origin x → saves x) {x : Saved} (hx : saves x) :
    ∀ y, v.held x.id = some y → y.project = x.project :=
  hv.project_eq fun y hy => h.root_eq (horigin y hy) hx

/-- What is read under any names is what one save has written under them. -/
theorem Represents.loads_read {origin : Saved → Prop} {s : SnapshotStore} {v : Shelf}
    (hs : Represents s v) (hv : v.Sound origin) (hstorable : ∀ x, origin x → x.Storable)
    {call : Call} (hrefusal : call.refusal? = none) {p i : Text} (hseeks : call.Seeks p i) :
    Loads origin call (read s p i) := by
  cases hfind : v.find p i with
  | none =>
    rw [hs.read_of_find_eq_none hfind]
    exact .missing hrefusal rfl
  | some x =>
    obtain ⟨hheld, rfl⟩ := Shelf.find_eq_some_iff.mp hfind
    obtain ⟨rfl, hx⟩ := hv.held hheld
    obtain ⟨g, hread, hgraph⟩ := hs.read_of_find_eq_some (hstorable x hx) hfind
    rw [hread]
    refine .found hrefusal hx hseeks ⟨hgraph, rfl, fun hlabel => ?_⟩
    rw [Saved.rereadInfo, Utf8.scrub_of_isValid hlabel]
    rfl

/-- What a transaction is shown to lead to: a store that holds a sound shelf, and a sound call. -/
def Keeps (origin : Saved → Prop) (call : Call) (r : SnapshotStore × Stage) : Prop :=
  ∃ v, Represents r.1 v ∧ v.Sound origin ∧ Task.Sound origin ⟨call, r.2⟩

section Step

variable {saves origin origin' : Saved → Prop} {s : SnapshotStore} {v : Shelf}
  (hsaves : Savable saves) (horigin : ∀ x, origin x → saves x) (hle : ∀ x, origin x → origin' x)
  (hs : Represents s v) (hv : v.Sound origin)
include hsaves horigin hle hs hv

/-- The first transaction of a call leads to a store that holds a sound shelf, if the call may save what
it saves. -/
theorem Call.begin_keeps {call : Call} (hcall : ∀ x, call.saved? = some x → saves x)
    (hnew : ∀ x, Task.Executes ⟨call, (call.begin s).2⟩ x → origin' x) :
    Keeps origin' call (call.begin s) := by
  have hv' := hv.mono hle
  cases call with
  | save context graph label now =>
    obtain ⟨e, hbegin⟩ | ⟨x, hx, hbegin⟩ := hs.begin_save context graph label now
    · rw [hbegin]
      exact ⟨v, hs, hv', False.elim⟩
    · -- a snapshot with this name is replaced in its own project, so no other one loses it
      have hproject := hsaves.project_eq hv horigin (hcall x hx)
      have hx' := hnew x ⟨hx, by rw [hbegin]⟩
      rw [hbegin]
      exact ⟨_, hs.write hproject, hv'.put hproject hx', False.elim⟩
  | delete context i =>
    obtain ⟨e, hbegin⟩ | ⟨x, hx, hbegin⟩ := hs.begin_delete context i
    · rw [hbegin]
      exact ⟨v, hs, hv', False.elim⟩
    · obtain ⟨hid, hx⟩ := hv'.held hx
      rw [hbegin]
      exact ⟨v, hs, hv', id, x, hx, rfl, hid⟩
  | load context i =>
    rw [hs.begin_load context i]
    refine ⟨v, hs, hv', ?_⟩
    cases hrefusal : (Call.load context i).refusal? with
    | some e => exact fun _ => ⟨_, rfl, .refused hrefusal⟩
    | none =>
      cases v.held i with
      | none => exact fun _ => ⟨_, rfl, .missing hrefusal rfl⟩
      | some x => exact ⟨hrefusal, rfl⟩
  | loadLatest context p =>
    rw [hs.begin_loadLatest context p]
    refine ⟨v, hs, hv', ?_⟩
    cases hrefusal : (Call.loadLatest context p).refusal? with
    | some e => exact fun _ => ⟨_, rfl, .refused hrefusal⟩
    | none =>
      cases v.latest p with
      | none => exact fun _ => ⟨_, rfl, .missing hrefusal rfl⟩
      | some i => exact ⟨hrefusal, rfl⟩
  | list context p limit => exact ⟨v, hs, hv', False.elim⟩

/-- Every later transaction of a call leads to a store that holds a sound shelf, whatever was done since
the first one. -/
theorem Task.step_keeps {t : Task} (ht : t.Sound origin)
    (hcall : ∀ x, t.call.saved? = some x → saves x)
    (hnew : ∀ x, Task.Executes ⟨t.call, (t.step s).2⟩ x → origin' x) :
    Keeps origin' t.call (t.step s) := by
  obtain ⟨call, stage⟩ := t
  cases stage with
  | waiting => exact Call.begin_keeps hsaves horigin hle hs hv hcall hnew
  | removing project id =>
    obtain ⟨hload, x, hx, rfl, rfl⟩ := ht
    -- the snapshot may be gone or saved again since its project was looked up, but only in there
    have hproject := hsaves.project_eq hv horigin (horigin x hx)
    obtain ⟨s', hremove, hs'⟩ := hs.remove x.isDigest_project x.isDigest_id hproject
    simp only [Task.step, hremove]
    exact ⟨_, hs', (hv.remove hproject).mono hle, fun h => absurd h hload⟩
  | reading project id =>
    -- what is held by now may be of another save than the pointer that led here
    have hloads := hs.loads_read hv (fun x hx => hsaves.storable (horigin x hx)) ht.1 ht.2
    exact ⟨v, hs, hv.mono hle, fun _ => ⟨_, rfl, hloads.mono hle⟩⟩
  | done answer => exact ⟨v, hs, hv.mono hle, ht.mono hle⟩

end Step

namespace Session

/-- Some call of the session has saved this. -/
def Executed (st : Session) (x : Saved) : Prop := ∃ t ∈ st.tasks, t.Executes x

/-- What holds throughout a session. -/
structure Sound (st : Session) : Prop where
  store : ∃ v, Represents st.store v ∧ v.Sound st.Executed
  tasks : ∀ t ∈ st.tasks, t.Sound st.Executed

/-- What the calls of a session may save. -/
def Saves (calls : List Call) (x : Saved) : Prop := ∃ call ∈ calls, call.saved? = some x

/-- At the start of a session everything is sound, since nothing was done. -/
theorem start_sound (calls : List Call) : (start calls).Sound where
  store := ⟨.empty, .empty, .empty _⟩
  tasks t ht := by
    obtain ⟨call, -, rfl⟩ := List.mem_map.mp ht
    trivial

/-- What was saved in a session is something that one of its calls saves. -/
theorem Executed.saves {st : Session} {x : Saved} (h : st.Executed x) :
    Saves (st.tasks.map (·.call)) x := by
  obtain ⟨t, ht, hx⟩ := h
  exact ⟨t.call, List.mem_map_of_mem ht, hx.1⟩

/-- A call that has saved something stays as it is. -/
theorem Executed.advance {st : Session} {x : Saved} (h : st.Executed x) (i : Nat) :
    (st.advance i).Executed x := by
  obtain ⟨t, ht, hx⟩ := h
  obtain ⟨j, hj⟩ := List.mem_iff_getElem?.mp ht
  refine ⟨t, List.mem_iff_getElem?.mpr ⟨j, ?_⟩, hx⟩
  have hstep : (t.step st.store).2 = t.stage := by simp only [Task.step, hx.2]
  rw [getElem?_advance, hj, Option.map_some, hstep, ite_self]

/-- The step of the argument: one transaction of one call keeps everything that holds of the
session. -/
theorem Sound.advance {st : Session} (h : st.Sound)
    (hsaves : Savable (Saves (st.tasks.map (·.call)))) (i : Nat) : (st.advance i).Sound := by
  cases hi : st.tasks[i]? with
  | none => rwa [advance_of_getElem?_eq_none hi]
  | some t =>
    obtain ⟨v, hs, hv⟩ := h.store
    have ht : t ∈ st.tasks := List.mem_of_getElem? hi
    have hle : ∀ x, st.Executed x → (st.advance i).Executed x := fun x hx => hx.advance i
    have hnext : ⟨t.call, (t.step st.store).2⟩ ∈ (st.advance i).tasks :=
      List.mem_of_getElem? (i := i) (by rw [getElem?_advance, hi]; simp)
    obtain ⟨v', hs', hv', ht'⟩ := Task.step_keeps hsaves (fun _ hx => hx.saves) hle hs hv
      (h.tasks t ht) (fun x hx => ⟨t.call, List.mem_map_of_mem ht, hx⟩)
      (fun x hx => ⟨_, hnext, hx⟩)
    refine ⟨⟨v', by rwa [advance_of_getElem? hi], hv'⟩, ?_⟩
    intro u hu
    rw [advance_of_getElem? hi] at hu
    rcases List.mem_or_eq_of_mem_set hu with hu | rfl
    · exact (h.tasks u hu).mono hle
    · exact ht'

/-- A session stays sound in every schedule, one with calls that do not exist or have ended included. -/
theorem Sound.run {st : Session} (h : st.Sound) (hsaves : Savable (Saves (st.tasks.map (·.call))))
    (schedule : List Nat) : (st.run schedule).Sound := by
  induction schedule generalizing st with
  | nil => exact h
  | cons i rest ih => exact ih (h.advance hsaves i) (by rwa [calls_advance])

end Session

/-- The entries of a store belong together: a snapshot has a pointer to its project exactly if its
graph and its record are there, these two come from one save, and no pointer leads nowhere. -/
structure Intact (s : SnapshotStore) (origin : Saved → Prop) : Prop where
  index_iff : ∀ {p i}, (s.values.find? (indexKey i)).map (·.bytes) = some p ↔
    s.values.contains (dataKey p i) = true ∧ s.values.contains (metaKey p i) = true
  together : ∀ {p i}, s.values.contains (dataKey p i) = true ∨
    s.values.contains (metaKey p i) = true →
    ∃ x, origin x ∧ x.project = p ∧ x.id = i ∧ s.values.find? (dataKey p i) = some (pack x.graph) ∧
      s.values.find? (metaKey p i) = some x.stored
  latest : ∀ {p i}, (s.values.find? (latestKey p)).map (·.bytes) = some i →
    s.values.contains (dataKey p i) = true ∧ s.values.contains (metaKey p i) = true

/-- In a store that holds a sound shelf the entries belong together. -/
theorem Represents.intact {origin : Saved → Prop} {s : SnapshotStore} {v : Shelf}
    (hs : Represents s v) (hv : v.Sound origin) : Intact s origin := by
  have hdata : ∀ p i, s.values.find? (dataKey p i) = (v.find p i).map (pack ·.graph) :=
    fun p i => hs.find?_eq (.data p i)
  have hrecord : ∀ p i, s.values.find? (metaKey p i) = (v.find p i).map (·.stored) :=
    fun p i => hs.find?_eq (.record p i)
  have hlatest : ∀ p, s.values.find? (latestKey p) = (v.latest p).map .plain :=
    fun p => hs.find?_eq (.latest p)
  have hindex : ∀ i, s.values.find? (indexKey i) = (v.held i).map (.plain ·.project) :=
    fun i => hs.find?_eq (.index i)
  have hcontains : ∀ p i, s.values.contains (dataKey p i) = (v.find p i).isSome ∧
      s.values.contains (metaKey p i) = (v.find p i).isSome := by
    intro p i
    simp only [SortedMap.contains, hdata, hrecord, Option.isSome_map, and_self]
  constructor
  case index_iff =>
    intro p i
    simp [hcontains, hindex, Option.isSome_iff_exists, Shelf.find_eq_some_iff, StoredValue.bytes]
  case together =>
    intro p i h
    rw [(hcontains p i).1, (hcontains p i).2, or_self, Option.isSome_iff_exists] at h
    obtain ⟨x, hfind⟩ := h
    obtain ⟨hheld, hproject⟩ := Shelf.find_eq_some_iff.mp hfind
    obtain ⟨hid, hx⟩ := hv.held hheld
    exact ⟨x, hx, hproject, hid, by rw [hdata, hfind]; rfl, by rw [hrecord, hfind]; rfl⟩
  case latest =>
    intro p i h
    have hpointer : v.latest p = some i := by
      simpa [hlatest, Function.comp_def, StoredValue.bytes] using h
    obtain ⟨x, hfind⟩ := hv.latest hpointer
    simp [hcontains, hfind]

/-- In every state that calls on an empty store lead to, in whatever order their transactions come,
the entries of the store belong together, and the calls to load that have ended by then got the
graph and the record of one save that was done by then, or found nothing. A call ends with its
second turn. -/
theorem Session.run_intact {calls : List Call} (hsaves : Savable (Saves calls))
    (schedule : List Nat) :
    Intact ((start calls).run schedule).store ((start calls).run schedule).Executed ∧
      ∀ i call, calls[i]? = some call →
        ∃ stage, ((start calls).run schedule).tasks[i]? = some ⟨call, stage⟩ ∧
          (2 ≤ schedule.count i → ∃ answer, stage = .done answer) ∧
          (call.Loading → ∀ answer, stage = .done answer →
            ∃ result, answer = .loaded result ∧
              Loads ((start calls).run schedule).Executed call result) := by
  have hcalls : (start calls).tasks.map (·.call) = calls := by simp [start, Function.comp_def]
  have hsound := (start_sound calls).run (by rwa [hcalls]) schedule
  obtain ⟨v, hs, hv⟩ := hsound.store
  refine ⟨hs.intact hv, fun i call hi => ?_⟩
  have htask : (start calls).tasks[i]? = some ⟨call, .waiting⟩ := by simp [start, hi]
  obtain ⟨stage, hstage, hleft⟩ := left_run htask schedule
  refine ⟨stage, hstage, fun hturns => ?_, ?_⟩
  · cases stage with
    | done answer => exact ⟨answer, rfl⟩
    | waiting | removing | reading =>
      simp only [Stage.left] at hleft
      omega
  · rintro hloading answer rfl
    exact hsound.tasks _ (List.mem_of_getElem? hstage) hloading

/-- A small graph of a project. -/
def linkedPair (root : Text) : ClassGraph :=
  (ClassGraph.new root ⟨9, 9⟩).runCalls [
    .addModule "z", .addNode ⟨"b.B", "b", "/B", "m"⟩, .addNode ⟨"a.A", "a", "/A", "k"⟩,
    .addEdge "b.B" "a.A" ⟨3⟩, .freeze 5]

/-- The small graph can be saved and read back, at any time that a file can hold. -/
theorem linkedPair_storable {root : Text} (hroot : root ∈ [("/p" : Text), "/q"]) (label : Text)
    {now : Int} (hnow : Json.IsInt64 now) : (Saved.mk (linkedPair root) label now).Storable := by
  have hcheck : ∀ root ∈ [("/p" : Text), "/q"], Utf8.isValid (linkedPair root).root = true ∧
      (∀ n ∈ (linkedPair root).nodeList, Utf8.isValid n.unit.name = true ∧
        Utf8.isValid n.unit.module = true ∧
        Utf8.isValid n.unit.package = true ∧ Utf8.isValid n.unit.path = true) ∧
      (∀ m ∈ (linkedPair root).named.keys, Utf8.isValid m = true) ∧
      ((linkedPair root).nodeCount : Int) ≤ ({} : GraphLimits).nodes ∧
      ((linkedPair root).edgeCount : Int) ≤ ({} : GraphLimits).edges ∧
      (GraphDocument.ofGraph (linkedPair root)).toJson.compact.length ≤ maxDocumentBytes ∧
      (linkedPair root).builtAt = 5 := by decide +kernel
  obtain ⟨hvalid, hunits, hnamed, hnodes, hedges, hbytes, hbuilt⟩ := hcheck root hroot
  exact {
    reachable := ⟨_, _, _, rfl⟩
    wellSpelled := ⟨hvalid, fun hn => hunits _ (SortedMap.mem_values_iff.mpr ⟨_, hn⟩),
      fun hm => hnamed _ (SortedMap.mem_keys_iff.mpr hm)⟩
    nodes_le := hnodes
    edges_le := hedges
    bytes_le := hbytes
    builtAt := by
      rw [hbuilt]
      unfold Json.IsInt64
      omega
    now := hnow }

/-- The graphs of the two projects have different names. -/
theorem linkedPair_id_inj : ∀ root ∈ [("/p" : Text), "/q"], ∀ root' ∈ [("/p" : Text), "/q"],
    idOf (linkedPair root) = idOf (linkedPair root') → root = root' := by decide +kernel

/-- A graph is deleted and saved again between the two transactions of a call that loads it. -/
def contested : List Call :=
  [.save (some .unlimited) (some (linkedPair "/p")) "first" 1,
    .load (some .unlimited) (idOf (linkedPair "/p")),
    .delete (some .unlimited) (idOf (linkedPair "/p")),
    .save (some .unlimited) (some (linkedPair "/q")) "other" 2,
    .save (some .unlimited) (some (linkedPair "/p")) "second" 3,
    .loadLatest (some .unlimited) (projectHash "/p")]

/-- All that the calls save is a small graph of one of two projects, under one of three labels. -/
theorem saves_contested {x : Saved} (h : Session.Saves contested x) :
    ∃ root ∈ [("/p" : Text), "/q"], x.graph = linkedPair root ∧
      x.label ∈ [("first" : Text), "other", "second"] ∧ Json.IsInt64 x.now := by
  obtain ⟨call, hcall, hx⟩ := h
  simp only [contested, List.mem_cons, List.not_mem_nil, or_false] at hcall
  rcases hcall with rfl | rfl | rfl | rfl | rfl | rfl <;>
    simp only [Call.saved?, Option.some.injEq, reduceCtorEq] at hx <;> subst hx
  · exact ⟨"/p", by simp, rfl, by simp, by decide, by decide⟩
  · exact ⟨"/q", by simp, rfl, by simp, by decide, by decide⟩
  · exact ⟨"/p", by simp, rfl, by simp, by decide, by decide⟩

/-- The calls give one name only in one project. -/
theorem root_eq_of_saves_contested {x y : Saved} (hx : Session.Saves contested x)
    (hy : Session.Saves contested y) (hid : x.id = y.id) : x.graph.root = y.graph.root := by
  obtain ⟨root, hroot, hgraph, -⟩ := saves_contested hx
  obtain ⟨root', hroot', hgraph', -⟩ := saves_contested hy
  rw [Saved.id, Saved.id, hgraph, hgraph'] at hid
  rw [hgraph, hgraph', linkedPair_id_inj root hroot root' hroot' hid]

/-- All that the calls save can be read back. -/
theorem storable_of_saves_contested {x : Saved} (hx : Session.Saves contested x) : x.Storable := by
  obtain ⟨root, hroot, hgraph, -, hnow⟩ := saves_contested hx
  have hstorable := linkedPair_storable hroot x.label hnow
  rwa [← hgraph] at hstorable

/-- The call gets a graph that was saved, though the one that it looked up was deleted before it was
read. -/
theorem Session.run_intact_contested : Savable (Saves contested) ∧
    Intact ((start contested).run [0, 1, 2, 3, 2, 5, 4, 1]).store
      ((start contested).run [0, 1, 2, 3, 2, 5, 4, 1]).Executed ∧
      ∃ result, ((start contested).run [0, 1, 2, 3, 2, 5, 4, 1]).tasks[1]? =
          some ⟨.load (some .unlimited) (idOf (linkedPair "/p")), .done (.loaded result)⟩ ∧
        Loads ((start contested).run [0, 1, 2, 3, 2, 5, 4, 1]).Executed
          (.load (some .unlimited) (idOf (linkedPair "/p"))) result := by
  have hsaves : Savable (Saves contested) :=
    ⟨storable_of_saves_contested, root_eq_of_saves_contested⟩
  obtain ⟨hintact, hload⟩ := run_intact hsaves [0, 1, 2, 3, 2, 5, 4, 1]
  obtain ⟨stage, hstage, hdone, hloads⟩ := hload 1 _ rfl
  obtain ⟨answer, rfl⟩ := hdone (by decide)
  obtain ⟨result, rfl, hresult⟩ := hloads trivial answer rfl
  exact ⟨hsaves, hintact, result, hstage, hresult⟩

end ClassAtlas.Snapshot
