import ClassAtlas.Snapshot.Archive

namespace ClassAtlas.Snapshot

/-- A call on the store. -/
inductive Call where
  | save (context : Option Budget) (graph : Option ClassGraph) (label : Text) (now : Int)
  | delete (context : Option Budget) (id : Text)
  | load (context : Option Budget) (id : Text)
  | loadLatest (context : Option Budget) (project : Text)
  | list (context : Option Budget) (project : Text) (limit : Int)

/-- What a call gives back. -/
inductive Answer where
  | saved (result : Except SnapshotError SnapshotInfo)
  | deleted (result : Except SnapshotError Unit)
  | loaded (result : Except SnapshotError (ClassGraph × SnapshotInfo))
  | listed (result : Except SnapshotError (List SnapshotInfo))

/-- How far a call has come. -/
inductive Stage where
  | waiting
  | removing (project id : Text)
  | reading (project id : Text)
  | done (answer : Answer)

namespace Call

/-- The call made alone. -/
def perform (s : SnapshotStore) : Call → SnapshotStore × Answer
  | save context graph label now =>
    match Snapshot.save s context graph label now with
    | .ok (s', info) => (s', .saved (.ok info))
    | .error e => (s, .saved (.error e))
  | delete context id =>
    match Snapshot.delete s context id with
    | .ok s' => (s', .deleted (.ok ()))
    | .error e => (s, .deleted (.error e))
  | load context id => (s, .loaded (Snapshot.load s context id))
  | loadLatest context project => (s, .loaded (Snapshot.loadLatest s context project))
  | list context project limit => (s, .listed (Snapshot.list s context project limit))

/-- The first transaction of a call. -/
def begin (s : SnapshotStore) : Call → SnapshotStore × Stage
  | save context graph label now =>
    match Snapshot.save s context graph label now with
    | .ok (s', info) => (s', .done (.saved (.ok info)))
    | .error e => (s, .done (.saved (.error e)))
  | delete context id =>
    match findProject s .delete context id with
    | .ok project => (s, .removing project id)
    | .error e => (s, .done (.deleted (.error e)))
  | load context id =>
    match findProject s .load context id with
    | .ok project => (s, .reading project id)
    | .error e => (s, .done (.loaded (.error e)))
  | loadLatest context project =>
    match findLatest s context project with
    | .ok id => (s, .reading project id)
    | .error e => (s, .done (.loaded (.error e)))
  | list context project limit => (s, .done (.listed (Snapshot.list s context project limit)))

end Call

/-- A call under way. -/
structure Task where
  call : Call
  stage : Stage

/-- The next transaction of a call. -/
def Task.step (s : SnapshotStore) (t : Task) : SnapshotStore × Stage :=
  match t.stage with
  | .waiting => t.call.begin s
  | .removing project id =>
    match remove s project id with
    | .ok s' => (s', .done (.deleted (.ok ())))
    | .error e => (s, .done (.deleted (.error e)))
  | .reading project id => (s, .done (.loaded (read s project id)))
  | .done answer => (s, .done answer)

/-- A store and the calls made on it. -/
structure Session where
  store : SnapshotStore
  tasks : List Task

namespace Session

/-- Calls on an empty store, none of which has begun. -/
def start (calls : List Call) : Session := ⟨.empty, calls.map (⟨·, .waiting⟩)⟩

/-- The session after the next transaction of one call. -/
def advance (st : Session) (i : Nat) : Session :=
  match st.tasks[i]? with
  | none => st
  | some t => ⟨(t.step st.store).1, st.tasks.set i { t with stage := (t.step st.store).2 }⟩

/-- The session after transactions of the calls that are listed, in this order. -/
def run (st : Session) (schedule : List Nat) : Session := schedule.foldl advance st

end Session

/-- The transactions of a call, with none between them, are the call. -/
theorem Session.run_alone (s : SnapshotStore) (call : Call) :
    (Session.mk s [⟨call, .waiting⟩]).run [0, 0] =
      ⟨(call.perform s).1, [⟨call, .done (call.perform s).2⟩]⟩ := by
  cases call with
  | save context graph label now =>
    cases h : Snapshot.save s context graph label now <;>
      simp [run, advance, Task.step, Call.begin, Call.perform, h]
  | delete context id =>
    cases h : findProject s .delete context id with
    | error e =>
      simp [run, advance, Task.step, Call.begin, Call.perform, delete, h, bind, Except.bind]
    | ok project =>
      cases h' : remove s project id <;>
        simp [run, advance, Task.step, Call.begin, Call.perform, delete, h, h', bind, Except.bind]
  | load context id =>
    cases h : findProject s .load context id <;>
      simp [run, advance, Task.step, Call.begin, Call.perform, load, h, bind, Except.bind]
  | loadLatest context project =>
    cases h : findLatest s context project <;>
      simp [run, advance, Task.step, Call.begin, Call.perform, loadLatest, h, bind, Except.bind]
  | list context project limit => simp [run, advance, Task.step, Call.begin, Call.perform]

namespace Session

/-- The next transaction of a call changes the store and the call. -/
theorem advance_of_getElem? {st : Session} {i : Nat} {t : Task} (h : st.tasks[i]? = some t) :
    st.advance i = ⟨(t.step st.store).1, st.tasks.set i ⟨t.call, (t.step st.store).2⟩⟩ := by
  simp only [advance, h]

/-- A number without a call changes nothing. -/
theorem advance_of_getElem?_eq_none {st : Session} {i : Nat} (h : st.tasks[i]? = none) :
    st.advance i = st := by
  simp only [advance, h]

/-- The next transaction of a call leaves all other calls as they are. -/
theorem getElem?_advance (st : Session) (i j : Nat) : (st.advance i).tasks[j]? =
    (st.tasks[j]?).map fun t => if i = j then ⟨t.call, (t.step st.store).2⟩ else t := by
  cases h : st.tasks[i]? with
  | none =>
    rw [advance_of_getElem?_eq_none h]
    by_cases hij : i = j
    · subst hij
      rw [h, Option.map_none]
    · simp [hij]
  | some t =>
    rw [advance_of_getElem? h, List.getElem?_set]
    by_cases hij : i = j
    · subst hij
      rw [if_pos rfl, if_pos (List.getElem?_eq_some_iff.mp h).1, h, Option.map_some, if_pos rfl]
    · simp [hij]

/-- The calls of a session stay the same. -/
theorem calls_advance (st : Session) (i : Nat) :
    (st.advance i).tasks.map (·.call) = st.tasks.map (·.call) := by
  apply List.ext_getElem?
  intro j
  rw [List.getElem?_map, getElem?_advance, List.getElem?_map, Option.map_map]
  congr 1
  funext t
  simp only [Function.comp_apply]
  split <;> rfl

end Session

/-- The number of transactions that a call still has at most. -/
def Stage.left : Stage → Nat
  | .waiting => 2
  | .removing .. | .reading .. => 1
  | .done _ => 0

/-- Every transaction leaves a call with fewer to come, until there are none. -/
theorem Task.left_step (t : Task) (s : SnapshotStore) : (t.step s).2.left ≤ t.stage.left - 1 := by
  obtain ⟨call, stage⟩ := t
  cases stage with
  | waiting =>
    cases call <;> simp only [Task.step, Call.begin] <;> (try split) <;> simp [Stage.left]
  | removing project id =>
    simp only [Task.step]
    split <;> simp [Stage.left]
  | reading project id => simp [Task.step, Stage.left]
  | done answer => simp [Task.step, Stage.left]

/-- Each turn of a call takes one of its transactions. -/
theorem Session.left_run {st : Session} {i : Nat} {t : Task} (h : st.tasks[i]? = some t)
    (schedule : List Nat) :
    ∃ stage, (st.run schedule).tasks[i]? = some ⟨t.call, stage⟩ ∧
      stage.left ≤ t.stage.left - schedule.count i := by
  induction schedule generalizing st t with
  | nil => exact ⟨t.stage, h, by simp⟩
  | cons j rest ih =>
    by_cases hj : j = i
    · subst hj
      have hnext : (st.advance j).tasks[j]? = some ⟨t.call, (t.step st.store).2⟩ := by
        simp [getElem?_advance, h]
      obtain ⟨stage, hstage, hleft⟩ := ih hnext
      have hstep := t.left_step st.store
      refine ⟨stage, hstage, ?_⟩
      rw [List.count_cons_self]
      dsimp only at hleft
      omega
    · have hnext : (st.advance j).tasks[i]? = some t := by simp [getElem?_advance, h, hj]
      rw [List.count_cons_of_ne hj]
      exact ih hnext

end ClassAtlas.Snapshot
