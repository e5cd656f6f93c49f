import ClassAtlas.Proofs.Graph.Completed
import ClassAtlas.Proofs.Settings.Environment
import ClassAtlas.Service.Basic

namespace ClassAtlas

/-- What work of a service gives in a workspace, and the workspace behind it. -/
def ServiceM.outcome {α : Type} (work : ServiceM α) (w : Workspace) :
    Except ServiceError α × Workspace := work.run.run w

namespace Service

variable {α β ε : Type} {s : Service} {w : Workspace}

/-- Work that only gives a value leaves the workspace as it is. -/
@[simp] theorem outcome_pure (a : α) (w : Workspace) :
    ServiceM.outcome (pure a) w = (.ok a, w) := rfl

/-- Work that only fails leaves the workspace as it is. -/
@[simp] theorem outcome_throw (e : ServiceError) (w : Workspace) :
    ServiceM.outcome (throw e : ServiceM α) w = (.error e, w) := rfl

/-- The workspace can be asked for. -/
@[simp] theorem outcome_get (w : Workspace) : ServiceM.outcome get w = (.ok w, w) := rfl

/-- The workspace can be put in place of another. -/
@[simp] theorem outcome_set (w w' : Workspace) : ServiceM.outcome (set w') w = (.ok ⟨⟩, w') := rfl

/-- The workspace can be changed. -/
@[simp] theorem outcome_modify (f : Workspace → Workspace) (w : Workspace) :
    ServiceM.outcome (modify f) w = (.ok ⟨⟩, f w) := rfl

/-- An attempt gives the result or the error of a service for it, and leaves the workspace as it is. -/
@[simp] theorem outcome_attempt (wrap : ε → ServiceError) (r : Except ε α) (w : Workspace) :
    (attempt wrap r).outcome w = (r.mapError wrap, w) := rfl

/-- The clock tells its time and goes on by one. Nothing else changes. -/
@[simp] theorem outcome_tick (w : Workspace) :
    tick.outcome w = (.ok w.clock, { w with clock := w.clock + 1 }) := rfl

/-- Work goes on in the workspace that the work before it leaves. -/
theorem outcome_bind (work : ServiceM α) (next : α → ServiceM β) (w : Workspace) :
    (work >>= next).outcome w =
      match work.outcome w with
      | (.ok a, w') => (next a).outcome w'
      | (.error e, w') => (.error e, w') := by
  change (match work.outcome w with
    | (result, w') => ServiceM.outcome (ExceptT.bindCont next result : StateM Workspace _) w') = _
  obtain ⟨result, w'⟩ := work.outcome w
  cases result <;> rfl

/-- Work that succeeds is done one after the other. -/
theorem exists_of_bind_eq_ok {work : ServiceM α} {next : α → ServiceM β} {w w' : Workspace} {b : β}
    (h : (work >>= next).outcome w = (.ok b, w')) :
    ∃ a w₁, work.outcome w = (.ok a, w₁) ∧ (next a).outcome w₁ = (.ok b, w') := by
  rw [outcome_bind] at h
  generalize work.outcome w = o at h ⊢
  obtain ⟨result, w₁⟩ := o
  cases result with
  | error e => cases h
  | ok a => exact ⟨a, w₁, rfl, h⟩

/-- The settings for a root with the environment that is left. -/
def loadedFor (s : Service) (w : Workspace) (path : Text) : Settings.Loaded :=
  match s.settings with
  | some settings => ⟨.ok settings, w.env⟩
  | none => Settings.load w.disk w.env path []

/-- The settings for a root change the environment of a workspace and nothing else, even if they are
refused. -/
theorem outcome_settingsFor (s : Service) (path : Text) (w : Workspace) :
    (s.settingsFor path).outcome w =
      ((s.loadedFor w path).result.mapError fun e => .analysis (.settings e),
        { w with env := (s.loadedFor w path).env }) := by
  unfold settingsFor loadedFor
  cases s.settings with
  | some settings => rfl
  | none => simp [outcome_bind]

/-- The result of an analysis and the workspace behind it. -/
theorem outcome_analyze (s : Service) (context : Budget) (root : Text) (w : Workspace) :
    (s.analyze context root).outcome w =
      match s.policy.resolve w.disk.workdir root, context.check with
      | .error e, _ => (.error (.refused e), w)
      | .ok _, .error i => (.error (.interrupted i), w)
      | .ok path, .ok _ =>
        match (s.loadedFor w path).result with
        | .error e => (.error (.analysis (.settings e)), { w with env := (s.loadedFor w path).env })
        | .ok settings =>
          ((Analysis.run settings w.disk s.budget w.clock path).mapError s.limitError,
            { w with env := (s.loadedFor w path).env, clock := w.clock + 1 }) := by
  simp only [analyze, outcome_bind, outcome_get, outcome_attempt, outcome_settingsFor, outcome_tick]
  cases s.policy.resolve w.disk.workdir root with
  | error e => rfl
  | ok path =>
    cases context.check with
    | error i => rfl
    | ok _ =>
      simp only [Except.mapError]
      cases (s.loadedFor w path).result <;> rfl

end Service

namespace Build

variable {x : Extractor} {d : Disk}

/-- The build with another time. -/
def redated (now : Int) (b : Build) : Build := { b with graph := { b.graph with builtAt := now } }

/-- A build that did not come to its end does not depend on the time, and another one has it as the
time of its graph. -/
theorem run_redated (options : BuildOptions) (budget : Budget) (now now' : Int) (cache : TextCache) :
    run x d options budget now' cache =
      if (run x d options budget now cache).failure = none
        then (run x d options budget now cache).redated now'
      else run x d options budget now cache := by
  rw [run_eq, run_eq]
  cases hfailure : (unfinished x d options budget cache).failure with
  | none =>
    rw [andThen_of_none hfailure, andThen_of_none hfailure, if_pos]
    · rfl
    · exact hfailure
  | some e =>
    rw [andThen_of_some hfailure, andThen_of_some hfailure, hfailure, if_neg (by simp)]

end Build

namespace Analysis

/-- The analysis with another time. -/
def redated (now : Int) (a : Analysis) : Analysis := { a with build := a.build.redated now }

/-- The settings are those of the analysis at any time. -/
@[simp] theorem redated_settings (now : Int) (a : Analysis) : (a.redated now).settings = a.settings := rfl

/-- The catalog is that of the analysis at any time. -/
@[simp] theorem redated_catalog (now : Int) (a : Analysis) : (a.redated now).catalog = a.catalog := rfl

/-- The cache is that of the analysis at any time. -/
@[simp] theorem redated_cache (now : Int) (a : Analysis) : (a.redated now).cache = a.cache := rfl

/-- An analysis at another time differs in its time only, and fails alike. -/
theorem run_redated (settings : Settings) (d : Disk) (budget : Budget) (now now' : Int) (root : Text) :
    run settings d budget now' root = (run settings d budget now root).map (redated now') := by
  unfold run
  cases Catalog.scan d (scanOptions settings) budget root with
  | error e => rfl
  | ok scanned =>
    obtain ⟨catalog, cache⟩ := scanned
    simp only [Except.mapError, bind, Except.bind]
    cases Extractor.of? catalog with
    | none => rfl
    | some x =>
      dsimp only
      rw [Build.run_redated (x := x) (d := d) {} budget now now' cache]
      cases hfailure : (Build.run x d {} budget now cache).failure with
      | none =>
        have hsame : ((Build.run x d {} budget now cache).redated now').failure = none := hfailure
        simp only [if_true, hsame]
        rfl
      | some e =>
        simp only [reduceCtorEq, if_false, hfailure]
        rfl

end Analysis

end ClassAtlas
