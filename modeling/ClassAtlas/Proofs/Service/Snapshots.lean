import ClassAtlas.Proofs.Expose.Callers
import ClassAtlas.Proofs.Graph.Spelling
import ClassAtlas.Proofs.Service.Isolation
import ClassAtlas.Proofs.Snapshot.Shelf

namespace ClassAtlas

namespace Snapshot

variable {x : Saved} {s : SnapshotStore} {g : ClassGraph} {i : SnapshotInfo}

/-- A snapshot that was just written is loaded as far as a graph can be built from its document, unless the
document was cut. -/
theorem load_write_eq_ok_iff (hopen : s.closed = false) (hnow : Json.IsInt64 x.now)
    (hbuilt : Json.IsInt64 x.graph.builtAt) (budget : Budget) :
    load (write s x.info x.graph) (some budget) x.id = .ok (g, i) ↔
      (GraphDocument.ofGraph x.graph).toJson.compact.length ≤ maxDocumentBytes ∧
        (GraphDocument.ofGraph x.graph).respelled.toGraph {} = .ok g ∧ x.info.respelled = i := by
  have hopen' : (write s x.info x.graph).closed = false := hopen
  have hproject : findProject (write s x.info x.graph) .load (some budget) x.id = .ok x.project := by
    have hindex : (write s x.info x.graph).get (indexKey x.id) = .ok (.plain x.project) := by
      have hfind := find?_write s x (.index x.id)
      rw [if_pos rfl] at hfind
      rw [SnapshotStore.get_eq hopen']
      exact congrArg (Option.elim · _ _) hfind
    unfold findProject
    rw [hindex]
    simp [x.id_ne_nil]
    rfl
  have hdata := find?_write s x (.data x.project x.id)
  have hrecord := find?_write s x (.record x.project x.id)
  simp only [reduceCtorEq, if_false, if_true] at hdata hrecord
  unfold load
  rw [hproject]
  exact Saved.read_eq_ok_iff hnow hbuilt hopen' hdata hrecord

/-- A snapshot is saved only in an open store, with the record that describes its graph. -/
theorem save_eq_ok {budget : Budget} {label : Text} {now : Int} {s' : SnapshotStore}
    (h : save s (some budget) (some g) label now = .ok (s', i)) :
    s.closed = false ∧ i = describe g label now ∧ s' = write s (describe g label now) g := by
  unfold save at h
  cases hcheck : budget.check with
  | error e => simp [hcheck, bind, Except.bind, Except.mapError] at h
  | ok rest =>
    cases hclosed : s.closed with
    | true => simp [hcheck, hclosed, bind, Except.bind, Except.mapError, throw, throwThe, MonadExceptOf.throw] at h
    | false =>
      simp only [hcheck, hclosed, bind, Except.bind, Except.mapError] at h
      obtain ⟨rfl, rfl⟩ := Prod.mk.inj (Except.ok.inj h)
      exact ⟨rfl, rfl, rfl⟩

end Snapshot

namespace Analysis

variable {settings : Settings} {d : Disk} {budget : Budget} {now : Int} {root : Text} {a : Analysis}

/-- An analysis that succeeds has scanned its catalog and built its graph without a failure. -/
theorem run_eq_ok (h : run settings d budget now root = .ok a) :
    a.settings = settings ∧ ∃ cache, a.catalog.Scanned ∧ a.build = Build.run a.extractor d {} budget now cache ∧
      (Build.run a.extractor d {} budget now cache).failure = none := by
  unfold run at h
  cases hscan : Catalog.scan d (scanOptions settings) budget root with
  | error e =>
    rw [hscan] at h
    contradiction
  | ok scanned =>
    obtain ⟨catalog, cache⟩ := scanned
    rw [hscan] at h
    simp only [Except.mapError, bind, Except.bind] at h
    cases hprepared : Extractor.of? catalog with
    | none =>
      rw [hprepared] at h
      contradiction
    | some x =>
      obtain rfl := Extractor.of?_eq_some_iff.mp hprepared
      rw [hprepared] at h
      dsimp only at h
      cases hfailure : (Build.run x d {} budget now cache).failure with
      | some cause =>
        rw [hfailure] at h
        contradiction
      | none =>
        rw [hfailure] at h
        obtain rfl := Except.ok.inj h
        exact ⟨rfl, cache, ⟨d, _, budget, root, cache, hscan⟩, rfl, hfailure⟩

/-- The graph of an analysis has the classes of the catalog, is within the usual limits and has the time of
the analysis. -/
structure Sound (a : Analysis) (now : Int) : Prop where
  wellFormed : a.graph.WellFormed
  unit : ∀ name, (a.graph.node? name).map (·.unit) = a.catalog.unit? name
  room : (a.graph.nodeCount : Int) ≤ ({} : GraphLimits).nodes ∧
    (a.graph.edgeCount : Int) ≤ ({} : GraphLimits).edges
  builtAt : a.graph.builtAt = now

/-- What an analysis gives is sound. Nothing is needed of the disk. -/
theorem sound_of_run (h : run settings d budget now root = .ok a) : a.Sound now := by
  obtain ⟨-, cache, hscanned, hbuild, hfailure⟩ := run_eq_ok h
  have hreflects := Build.run_reflects hscanned hfailure
  have hroom := Build.run_within_limits hscanned hfailure
  have hbuilt := Build.run_builtAt hscanned hfailure
  rw [← hbuild] at hreflects hroom hbuilt
  have hlimits : max 0 ({} : GraphLimits).nodes = ({} : GraphLimits).nodes ∧
      max 0 ({} : GraphLimits).edges = ({} : GraphLimits).edges := by decide
  exact ⟨hreflects.reachable.wellFormed, hreflects.unit, ⟨hlimits.1 ▸ hroom.1, hlimits.2 ▸ hroom.2⟩, hbuilt⟩

/-- The graph of an analysis is read back in the same shape exactly if the names of all classes that were
found are well-formed, and those of their modules. -/
theorem Sound.exists_sameShape_iff (h : a.Sound now) :
    (∃ g, (GraphDocument.ofGraph a.graph).respelled.toGraph {} = .ok g ∧ g.SameShape a.graph) ↔
      ∀ u ∈ a.catalog.list, Utf8.isValid u.name = true ∧ Utf8.isValid u.module = true := by
  rw [GraphDocument.exists_sameShape_iff h.wellFormed h.room]
  constructor
  · intro hnodes u hu
    have hunit := h.unit u.name
    rw [Catalog.unit?_of_mem_list hu, Option.map_eq_some_iff] at hunit
    obtain ⟨n, hn, rfl⟩ := hunit
    exact hnodes _ n hn
  · intro hunits name n hn
    have hunit := h.unit name
    rw [hn, Option.map_some] at hunit
    have hvalid := hunits n.unit (SortedMap.mem_values_iff.mpr ⟨name, hunit.symm⟩)
    rwa [(h.wellFormed.node_name hn).1] at hvalid

/-- The time of an analysis does not matter for the shape of its graph. -/
theorem sameShape_redated_iff {g : ClassGraph} :
    g.SameShape (a.redated now).graph ↔ g.SameShape a.graph :=
  ⟨fun h => ⟨h.module, h.hasEdge⟩, fun h => ⟨h.module, h.hasEdge⟩⟩

end Analysis

namespace Service

variable {s : Service} {w w' : Workspace} {context context' rest : Budget} {root label : Text} {a : Analysis}
  {info : SnapshotInfo}

/-- What an analysis finds is what stands on the disk, seen with the settings of the project. -/
structure Found (s : Service) (w : Workspace) (root path : Text) (a : Analysis) : Prop where
  resolved : s.policy.resolve w.disk.workdir root = .ok path
  loaded : (s.loadedFor w path).result = .ok a.settings
  analysed : Analysis.run a.settings w.disk s.budget w.clock path = .ok a

/-- Where something is to be found, an analysis finds it and leaves the disk and the store as they are. -/
theorem Found.outcome_analyze {path : Text} (h : s.Found w root path a) (hcontext : context.check = .ok rest) :
    (s.analyze context root).outcome w =
      (.ok a, { w with env := (s.loadedFor w path).env, clock := w.clock + 1 }) := by
  rw [Service.outcome_analyze]
  simp only [h.resolved, hcontext, h.loaded, h.analysed]
  rfl

/-- What an analysis gave was to be found, and the context had not ended. -/
theorem exists_found (h : ((s.analyze context root).outcome w).1 = .ok a) :
    (∃ rest, context.check = .ok rest) ∧ ∃ path, s.Found w root path a := by
  rw [outcome_analyze] at h
  cases hpath : s.policy.resolve w.disk.workdir root with
  | error e => simp [hpath] at h
  | ok path =>
    cases hcheck : context.check with
    | error i => simp [hpath, hcheck] at h
    | ok rest =>
      cases hloaded : (s.loadedFor w path).result with
      | error e => simp [hpath, hcheck, hloaded] at h
      | ok settings =>
        simp only [hpath, hcheck, hloaded] at h
        cases hrun : Analysis.run settings w.disk s.budget w.clock path with
        | error e =>
          rw [hrun] at h
          contradiction
        | ok a' =>
          rw [hrun] at h
          obtain rfl := Except.ok.inj h
          have hsettings := (Analysis.run_eq_ok hrun).1
          exact ⟨⟨rest, rfl⟩, path, hpath, by rw [hloaded, hsettings], by rw [hsettings, hrun]⟩

/-- A project that did not change is found again as it was, except for the time. -/
theorem Found.again {path : Text} (h : s.Found w root path a) {later : Workspace}
    (hdisk : later.disk = w.disk) (henv : later.env = (s.loadedFor w path).env) :
    s.Found later root path (a.redated later.clock) where
  resolved := by rw [hdisk, h.resolved]
  loaded := by
    rw [Analysis.redated_settings, ← h.loaded]
    unfold loadedFor
    cases hsettings : s.settings with
    | some settings => rfl
    | none =>
      dsimp only
      rw [hdisk, henv, loadedFor, hsettings, Settings.load_again]
  analysed := by
    rw [Analysis.redated_settings, hdisk, Analysis.run_redated _ _ _ w.clock, h.analysed]
    rfl

/-- Renaming errors does not change successes. -/
theorem mapError_eq_ok_iff {α ε ε' : Type} {f : ε → ε'} {r : Except ε α} {x : α} :
    r.mapError f = .ok x ↔ r = .ok x := by
  cases r <;> simp [Except.mapError]

/-- The store is there unless snapshots are disabled. The workspace stays as it is. -/
theorem outcome_store (w : Workspace) : store.outcome w =
    (w.store.elim (.error .snapshotsDisabled) .ok, w) := by
  unfold store
  rw [outcome_bind, outcome_get]
  dsimp only
  cases w.store <;> rfl

/-- Loading a snapshot leaves the workspace as it is. -/
theorem outcome_loadSnapshot {kept : SnapshotStore} (h : w.store = some kept) (context : Budget) (id : Text) :
    (loadSnapshot context id).outcome w = ((Snapshot.load kept (some context) id).mapError .snapshot, w) := by
  unfold loadSnapshot
  rw [outcome_bind, outcome_store, h]
  rfl

/-- A snapshot is saved in an open store, and nothing else changes but the environment and the time. -/
theorem exists_saved (h : (s.saveSnapshot context root label).outcome w = (.ok info, w')) :
    ∃ kept path a, kept.closed = false ∧ ((s.analyze context root).outcome w).1 = .ok a ∧
      s.Found w root path a ∧ info = Snapshot.describe a.graph label (w.clock + 1) ∧
      w' = ⟨w.disk, (s.loadedFor w path).env, some (Snapshot.write kept info a.graph), w.clock + 1 + 1⟩ := by
  obtain ⟨kept, w₁, hstore, h⟩ := exists_of_bind_eq_ok h
  obtain ⟨a, w₂, hanalyze, h⟩ := exists_of_bind_eq_ok h
  obtain ⟨now, w₃, htick, h⟩ := exists_of_bind_eq_ok h
  obtain ⟨⟨kept', info'⟩, w₄, hsave, h⟩ := exists_of_bind_eq_ok h
  obtain ⟨⟨⟩, w₅, hkeep, h⟩ := exists_of_bind_eq_ok h
  rw [outcome_store] at hstore
  obtain ⟨-, rfl⟩ := Prod.mk.inj hstore
  have ha := congrArg Prod.fst hanalyze
  obtain ⟨⟨rest, hcheck⟩, path, hfound⟩ := exists_found ha
  rw [hfound.outcome_analyze hcheck] at hanalyze
  obtain ⟨-, rfl⟩ := Prod.mk.inj hanalyze
  obtain ⟨hnow, rfl⟩ := Prod.mk.inj htick
  obtain rfl := Except.ok.inj hnow
  obtain ⟨hok, rfl⟩ := Prod.mk.inj hsave
  obtain ⟨-, rfl⟩ := Prod.mk.inj hkeep
  obtain ⟨hinfo, rfl⟩ := Prod.mk.inj h
  obtain rfl := Except.ok.inj hinfo
  obtain ⟨hclosed, rfl, rfl⟩ := Snapshot.save_eq_ok (mapError_eq_ok_iff.mp hok)
  exact ⟨kept, path, a, hclosed, ha, hfound, rfl, rfl⟩

/-- A comparison with the project is one of what is loaded with what is found. -/
theorem outcome_diffSnapshots {kept : SnapshotStore} {path : Text} (hstore : w.store = some kept)
    (hfound : s.Found w root path a) (hcontext : context.check = .ok rest) (id : Text) :
    ((s.diffSnapshots context root id []).outcome w).1 =
      ((Snapshot.load kept (some context) id).mapError .snapshot).map
        fun loaded => GraphDiff.compare loaded.1 a.graph id currentId := by
  unfold diffSnapshots
  rw [outcome_bind, outcome_loadSnapshot hstore]
  cases Snapshot.load kept (some context) id with
  | error e => rfl
  | ok loaded =>
    obtain ⟨g, i⟩ := loaded
    simp only [Except.mapError, List.isEmpty_nil, if_true, outcome_bind, hfound.outcome_analyze hcontext]
    rfl

/-- A snapshot of a project that did not change can be loaded and shows no difference, exactly if the names
of all classes and of their modules are well-formed and the document of the graph is not cut. -/
theorem diffSnapshots_unchanged_iff (hclock : Json.IsInt64 w.clock ∧ Json.IsInt64 (w.clock + 1))
    (hsave : (s.saveSnapshot context root label).outcome w = (.ok info, w'))
    (hcontext : context'.check = .ok rest) (now : Int) :
    ∃ a, ((s.analyze context root).outcome w).1 = .ok a ∧
      ((∃ loaded, ((loadSnapshot context' info.id).outcome { w' with clock := now }).1 = .ok loaded ∧
        ∃ diff, ((s.diffSnapshots context' root info.id []).outcome { w' with clock := now }).1 = .ok diff ∧
          diff.isEmpty = true) ↔
        (∀ u ∈ a.catalog.list, Utf8.isValid u.name = true ∧ Utf8.isValid u.module = true) ∧
          (GraphDocument.ofGraph a.graph).toJson.compact.length ≤ Snapshot.maxDocumentBytes) := by
  obtain ⟨kept, path, a, hopen, ha, hfound, rfl, rfl⟩ := exists_saved hsave
  refine ⟨a, ha, ?_⟩
  have hsound := Analysis.sound_of_run hfound.analysed
  let x : Snapshot.Saved := ⟨a.graph, label, w.clock + 1⟩
  let later : Workspace :=
    ⟨w.disk, (s.loadedFor w path).env, some (Snapshot.write kept x.info x.graph), now⟩
  change (∃ loaded, ((loadSnapshot context' x.id).outcome later).1 = .ok loaded ∧
    ∃ diff, ((s.diffSnapshots context' root x.id []).outcome later).1 = .ok diff ∧
      diff.isEmpty = true) ↔ _
  have hbuilt : Json.IsInt64 x.graph.builtAt := by
    rw [hsound.builtAt]
    exact hclock.1
  have hload : ∀ {g i}, Snapshot.load (Snapshot.write kept x.info x.graph) (some context') x.id = .ok (g, i) ↔ _ :=
    Snapshot.load_write_eq_ok_iff hopen hclock.2 hbuilt context'
  have hagain : s.Found later root path (a.redated now) := hfound.again rfl rfl
  have hempty : ∀ {g}, (GraphDocument.ofGraph a.graph).respelled.toGraph {} = .ok g →
      ((GraphDiff.compare g (a.redated now).graph x.id currentId).isEmpty = true ↔ g.SameShape a.graph) := by
    intro g hgraph
    rw [GraphDiff.isEmpty_compare_iff (GraphDocument.toGraph_reachable hgraph).wellFormed
      (Analysis.sound_of_run hagain.analysed).wellFormed]
    exact Analysis.sameShape_redated_iff
  rw [outcome_loadSnapshot rfl, outcome_diffSnapshots rfl hagain hcontext, ← hsound.exists_sameShape_iff]
  dsimp only
  constructor
  · rintro ⟨⟨g, i⟩, hloaded, diff, hdiff, hnone⟩
    have hok := mapError_eq_ok_iff.mp hloaded
    rw [hok] at hdiff
    obtain rfl := Except.ok.inj hdiff
    obtain ⟨hbytes, hgraph, -⟩ := hload.mp hok
    exact ⟨⟨g, hgraph, (hempty hgraph).mp hnone⟩, hbytes⟩
  · rintro ⟨⟨g, hgraph, hshape⟩, hbytes⟩
    have hok := hload.mpr ⟨hbytes, hgraph, rfl⟩
    rw [hok]
    exact ⟨_, rfl, _, rfl, (hempty hgraph).mpr hshape⟩

/-- A project of two modules, with one of them named in letters beyond ASCII. -/
def smallProject : Workspace where
  disk := ((Disk.blank "/").put ["mö", "A.java"] (.file "package p;\nclass A { B b; }\n")).put
    ["n", "B.java"] (.file "package p;\nclass B {}\n")
  env := SortedMap.empty
  store := some .empty
  clock := 0

/-- Two analyses of the small project are saved, and no difference is found between them. -/
theorem diffSnapshots_unchanged_smallProject :
    let s : Service := {}
    ∃ info w', (s.saveSnapshot .unlimited "/" "base").outcome smallProject = (.ok info, w') ∧
      ∃ diff, ((s.diffSnapshots .unlimited "/" info.id []).outcome { w' with clock := 9 }).1 = .ok diff ∧
        diff.isEmpty = true := by
  intro s
  have hsaved : ((s.saveSnapshot .unlimited "/" "base").outcome smallProject).1.isOk = true := by
    decide
  have hanalysed : ((s.analyze .unlimited "/").outcome smallProject).1.toOption.any (fun a =>
      a.catalog.list.all (fun u => Utf8.isValid u.name && Utf8.isValid u.module) &&
        decide ((GraphDocument.ofGraph a.graph).toJson.compact.length ≤ Snapshot.maxDocumentBytes)) = true := by
    decide +kernel
  cases hsave : (s.saveSnapshot .unlimited "/" "base").outcome smallProject with
  | mk result w' =>
    cases result with
    | error e =>
      rw [hsave] at hsaved
      contradiction
    | ok info =>
      have hclock : Json.IsInt64 0 ∧ Json.IsInt64 (0 + 1) := ⟨⟨by decide, by decide⟩, by decide, by decide⟩
      have hcontext : Budget.unlimited.check = .ok .unlimited := rfl
      obtain ⟨a, ha, hiff⟩ := diffSnapshots_unchanged_iff hclock hsave hcontext 9
      rw [ha] at hanalysed
      simp only [Except.toOption, Option.any_some, Bool.and_eq_true, List.all_eq_true, decide_eq_true_eq]
        at hanalysed
      obtain ⟨loaded, -, hdiff⟩ := hiff.mpr hanalysed
      exact ⟨info, w', rfl, hdiff⟩

/-- A project with a class in a package that is named by a stray byte. -/
def strayProject : Workspace where
  disk := (Disk.blank "/").put ["m", "A.java"] (.file (("package " : Text) ++ [0xFF] ++ (";\nclass A {}\n" : Text)))
  env := SortedMap.empty
  store := some .empty
  clock := 0

/-- A stray byte in the name of a class is lost in a snapshot, so the class is found to be removed and
another one to be added. -/
theorem diffSnapshots_strayProject :
    let s : Service := {}
    let work : ServiceM GraphDiff := do
      let info ← s.saveSnapshot .unlimited "/" "base"
      s.diffSnapshots .unlimited "/" info.id []
    (work.outcome strayProject).1.toOption.map (fun diff => (diff.classesRemoved, diff.classesAdded)) =
      some ([[0xEF, 0xBF, 0xBD] ++ (".A" : Text)], [[0xFF] ++ (".A" : Text)]) := by
  decide +kernel

end Service

end ClassAtlas
