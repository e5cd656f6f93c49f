import ClassAtlas.Proofs.Snapshot.Interleaving
import ClassAtlas.Proofs.Snapshot.Listing
import Mathlib.Data.List.Induction

namespace ClassAtlas.Snapshot

/-- A call with the answer that it got. -/
structure Event where
  call : Call
  answer : Answer

namespace Event

/-- The call has saved this. -/
def Saves (e : Event) (x : Saved) : Prop :=
  e.call.saved? = some x ∧ e.answer = .saved (.ok x.info)

/-- The call has deleted the snapshot with this name. -/
def Deletes (e : Event) (id : Text) : Prop :=
  (∃ context, e.call = .delete context id) ∧ e.answer = .deleted (.ok ())

/-- The call has saved or deleted the snapshot with this name. -/
def Touches (e : Event) (id : Text) : Prop := (∃ x, e.Saves x ∧ x.id = id) ∨ e.Deletes id

end Event

/-- A snapshot was saved, and since then nothing was saved or deleted under its name. -/
def Current (events : List Event) (x : Saved) : Prop :=
  ∃ front e back, events = front ++ e :: back ∧ e.Saves x ∧ ∀ e' ∈ back, ¬ e'.Touches x.id

/-- A store and the calls that were made on it. -/
structure History where
  store : SnapshotStore
  events : List Event

namespace History

/-- An empty store on which no call was made. -/
def start : History := ⟨.empty, []⟩

/-- The event of a call that is made next. -/
def event (h : History) (call : Call) : Event := ⟨call, (call.perform h.store).2⟩

/-- The history after one more call. -/
def next (h : History) (call : Call) : History :=
  ⟨(call.perform h.store).1, h.events ++ [h.event call]⟩

end History

/-- What the transactions of a call give, with none between them, is what the call gives. -/
theorem Call.perform_eq {call : Call} {s s₁ s₂ : SnapshotStore} {stage : Stage} {answer : Answer}
    (hbegin : call.begin s = (s₁, stage)) (hstep : Task.step s₁ ⟨call, stage⟩ = (s₂, .done answer)) :
    call.perform s = (s₂, answer) := by
  have halone := Session.run_alone s call
  have hwaiting : Task.step s ⟨call, .waiting⟩ = (s₁, stage) := hbegin
  simp only [Session.run, List.foldl_cons, List.foldl_nil, Session.advance, List.getElem?_cons_zero,
    hwaiting, hstep, List.set_cons_zero, Session.mk.injEq, List.cons.injEq, Task.mk.injEq,
    Stage.done.injEq, and_true, true_and] at halone
  exact Prod.ext halone.1.symm halone.2.symm

namespace Represents

variable {s : SnapshotStore} {v : Shelf} {origin : Saved → Prop}

/-- Deleting a snapshot that is held succeeds and takes it off the shelf. -/
theorem perform_delete (h : Represents s v) {context : Option Budget} {x : Saved}
    (hx : v.held x.id = some x)
    (hbegin : (Call.delete context x.id).begin s = (s, .removing x.project x.id)) :
    ∃ s', Snapshot.remove s x.project x.id = .ok s' ∧
      Represents s' (v.remove x.project x.id) ∧
        (Call.delete context x.id).perform s = (s', .deleted (.ok ())) := by
  obtain ⟨s', hremove, hs'⟩ := h.remove x.isDigest_project x.isDigest_id (Shelf.project_eq_of_held hx)
  refine ⟨s', hremove, hs', Call.perform_eq hbegin ?_⟩
  simp only [Task.step, hremove]

/-- All that a call can do: nothing to the store, or it writes what it saves, or it removes a
snapshot that is held. -/
theorem perform_cases (h : Represents s v) (hv : v.Sound origin) (call : Call) :
    (call.perform s).1 = s ∧ (∀ id, ¬ Event.Touches ⟨call, (call.perform s).2⟩ id) ∨
      (∃ x, call.saved? = some x ∧
        call.perform s = (Snapshot.write s x.info x.graph, .saved (.ok x.info))) ∨
      ∃ context x s', call = .delete context x.id ∧ v.held x.id = some x ∧
        Snapshot.remove s x.project x.id = .ok s' ∧ Represents s' (v.remove x.project x.id) ∧
          call.perform s = (s', .deleted (.ok ())) := by
  cases call with
  | save context graph label now =>
    obtain ⟨e, hbegin⟩ | ⟨x, hx, hbegin⟩ := h.begin_save context graph label now
    · rw [Call.perform_eq hbegin rfl]
      exact .inl ⟨rfl, by simp [Event.Touches, Event.Saves, Event.Deletes]⟩
    · exact .inr (.inl ⟨x, hx, Call.perform_eq hbegin rfl⟩)
  | delete context i =>
    obtain ⟨e, hbegin⟩ | ⟨x, hx, hbegin⟩ := h.begin_delete context i
    · rw [Call.perform_eq hbegin rfl]
      exact .inl ⟨rfl, by simp [Event.Touches, Event.Saves, Event.Deletes]⟩
    · obtain ⟨rfl, -⟩ := hv.held hx
      obtain ⟨s', hremove, hs', hperform⟩ := h.perform_delete hx hbegin
      exact .inr (.inr ⟨context, x, s', rfl, hx, hremove, hs', hperform⟩)
  | load context i =>
    exact .inl ⟨rfl, by simp [Event.Touches, Event.Saves, Event.Deletes, Call.perform]⟩
  | loadLatest context p =>
    exact .inl ⟨rfl, by simp [Event.Touches, Event.Saves, Event.Deletes, Call.perform]⟩
  | list context p limit =>
    exact .inl ⟨rfl, by simp [Event.Touches, Event.Saves, Event.Deletes, Call.perform]⟩

end Represents

/-- How the snapshots on a shelf change with an event. -/
structure Leads (v : Shelf) (e : Event) (v' : Shelf) : Prop where
  saves : ∀ {x}, e.Saves x → v'.held x.id = some x
  deletes : ∀ {id}, e.Deletes id → v'.held id = none
  keeps : ∀ {id}, ¬ e.Touches id → v'.held id = v.held id

/-- The store has the entries of a shelf and no others. -/
structure Holds (s : SnapshotStore) (v : Shelf) (origin : Saved → Prop) : Prop where
  represents : Represents s v
  keyed : Keyed s
  sound : v.Sound origin

/-- What may be saved: its record can be read back, and the same name is given only in the same
project. -/
structure Listable (saves : Saved → Prop) : Prop where
  recordable : ∀ {x}, saves x → Recordable x
  root_eq : ∀ {x y}, saves x → saves y → x.id = y.id → x.graph.root = y.graph.root

/-- Fewer snapshots may be saved where more may. -/
theorem Listable.mono {saves saves' : Saved → Prop} (h : Listable saves) (hle : ∀ x, saves' x → saves x) :
    Listable saves' where
  recordable hx := h.recordable (hle _ hx)
  root_eq hx hy := h.root_eq (hle _ hx) (hle _ hy)

/-- A call leaves the store with the entries of a shelf, and the shelf changes with the event. The call
may fail or break off. -/
theorem Holds.perform {s : SnapshotStore} {v : Shelf} {origin origin' : Saved → Prop}
    (h : Holds s v origin) (hle : ∀ x, origin x → origin' x) (horigin : Listable origin') {call : Call}
    (hcall : ∀ x, call.saved? = some x → origin' x) :
    ∃ v', Holds (call.perform s).1 v' origin' ∧ Leads v ⟨call, (call.perform s).2⟩ v' := by
  have hsound := h.sound.mono hle
  obtain ⟨hstore, hnone⟩ | ⟨x, hx, hperform⟩ | ⟨context, x, s', rfl, hx, hremove, hs', hperform⟩ :=
    h.represents.perform_cases h.sound call
  · refine ⟨v, ⟨hstore.symm ▸ h.represents, hstore.symm ▸ h.keyed, hsound⟩, ?_, ?_, fun _ => rfl⟩
    · exact fun hsaves => absurd (.inl ⟨_, hsaves, rfl⟩) (hnone _)
    · exact fun hdeletes => absurd (.inr hdeletes) (hnone _)
  · have hproject := hsound.project_eq fun y hy => horigin.root_eq hy (hcall x hx)
    have hnew : Event.Saves ⟨call, .saved (.ok x.info)⟩ x := ⟨hx, rfl⟩
    rw [hperform]
    refine ⟨v.put x, ⟨h.represents.write hproject, h.keyed.write x, hsound.put hproject (hcall x hx)⟩,
      ?_, ?_, ?_⟩
    · rintro y ⟨hy, -⟩
      rw [hx] at hy
      rw [← Option.some.inj hy, Shelf.held_put, if_pos rfl]
    · rintro id ⟨-, hanswer⟩
      cases hanswer
    · intro id htouches
      rw [Shelf.held_put, if_neg]
      rintro rfl
      exact htouches (.inl ⟨x, hnew, rfl⟩)
  · have hproject := Shelf.project_eq_of_held hx
    have hgone : Event.Deletes ⟨.delete context x.id, .deleted (.ok ())⟩ x.id := ⟨⟨_, rfl⟩, rfl⟩
    rw [hperform]
    refine ⟨v.remove x.project x.id, ⟨hs', h.keyed.remove hremove, hsound.remove hproject⟩, ?_, ?_, ?_⟩
    · rintro y ⟨-, hanswer⟩
      cases hanswer
    · rintro id ⟨⟨_, hid⟩, -⟩
      rw [(Call.delete.inj hid).2, Shelf.held_remove, if_pos rfl]
    · intro id htouches
      rw [Shelf.held_remove, if_neg]
      rintro rfl
      exact htouches (.inr hgone)

/-- The records of the current snapshots of a project, or of all, in the order in which they are
listed. -/
structure Shows (events : List Event) (project : Text) (all : List SnapshotInfo) : Prop where
  mem_iff : ∀ info, info ∈ all ↔
    ∃ x, Current events x ∧ (project = [] ∨ x.project = project) ∧ x.info = info
  nodup : (all.map (·.id)).Nodup
  newest : all.Pairwise Newer

/-- What calls save they save when more calls follow. -/
theorem Session.Saves.append {calls : List Call} {x : Saved} (h : Session.Saves calls x)
    (more : List Call) : Session.Saves (calls ++ more) x := by
  obtain ⟨call, hcall, hx⟩ := h
  exact ⟨call, List.mem_append_left _ hcall, hx⟩

namespace History

open Session (Saves)

end History

end ClassAtlas.Snapshot
