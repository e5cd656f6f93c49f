import ClassAtlas.Export
import ClassAtlas.Proofs.Graph.Construction

namespace ClassAtlas.Export

variable {size : Nat} {rows : List Json} {p q : Progress} {s : Statement}
  {plan sent plan' sent' : List Statement} {o o' : Outcome}

/-- The rows in chunks of at most `size`, none of them empty and all but the last of them full. -/
structure Cuts (size : Nat) (rows : List Json) (chunks : List (List Json)) : Prop where
  joined : chunks.flatten = rows
  nonempty : ∀ c ∈ chunks, c ≠ []
  within : ∀ c ∈ chunks, c.length ≤ size
  full : ∀ c ∈ chunks.dropLast, c.length = size

/-- There are no chunks exactly if there are no rows. -/
theorem batches_eq_nil_iff (hsize : 0 < size) : batches size rows = [] ↔ rows = [] := by
  have hpos : size ≠ 0 := Nat.ne_of_gt hsize
  rw [batches]
  simp [hpos]

/-- Rows are cut into chunks with none of them lost, repeated or out of order. -/
theorem cuts_batches (hsize : 0 < size) (rows : List Json) : Cuts size rows (batches size rows) := by
  fun_induction batches size rows with
  | case1 rows hempty =>
    obtain rfl : rows = [] := by
      simp only [Bool.or_eq_true, List.isEmpty_iff, beq_iff_eq] at hempty
      exact hempty.resolve_right (Nat.ne_of_gt hsize)
    exact ⟨rfl, by simp, by simp, by simp⟩
  | case2 rows hmore ih =>
    have hrows : rows ≠ [] := by
      rintro rfl
      simp at hmore
    constructor
    case joined => rw [List.flatten_cons, ih.joined, List.take_append_drop]
    case nonempty =>
      refine List.forall_mem_cons.mpr ⟨?_, ih.nonempty⟩
      simp [List.take_eq_nil_iff, hrows, Nat.ne_of_gt hsize]
    case within => exact List.forall_mem_cons.mpr ⟨List.length_take_le size rows, ih.within⟩
    case full =>
      -- the first chunk is the last one exactly if no rows are left behind it
      by_cases hrest : rows.drop size = []
      · simp [(batches_eq_nil_iff hsize).mpr hrest]
      · have hchunks := mt (batches_eq_nil_iff hsize).mp hrest
        rw [List.dropLast_cons_of_ne_nil hchunks]
        refine List.forall_mem_cons.mpr ⟨?_, ih.full⟩
        have hlong : size < rows.length := by simpa [List.drop_eq_nil_iff] using hrest
        rw [List.length_take]
        omega

/-- So many more statements can be sent before a check fails or the connection refuses one. -/
def Progress.Allows (p : Progress) (n : Nat) : Prop :=
  (∀ left, p.budget.left = some left → n ≤ left) ∧
    (p.connection.sent.length < p.connection.failAt → p.connection.sent.length + n < p.connection.failAt)

/-- The statements of a plan are sent in their order as far as it is allowed, and are counted. -/
structure Sends (p : Progress) (plan sent : List Statement) (o : Outcome) : Prop where
  front : sent <+: plan
  recorded : o.progress.connection.statements = p.connection.statements ++ sent
  counted : o.progress.stats.statements = p.stats.statements + sent.length
  complete : o.failure = none ↔ sent = plan
  allowed : p.Allows sent.length
  stopped : sent ≠ plan → ¬p.Allows (sent.length + 1)
  remaining : sent = plan → ∀ n, o.progress.Allows n ↔ p.Allows (plan.length + n)

/-- No statement can always be sent. -/
theorem Progress.allows_zero (p : Progress) : p.Allows 0 := ⟨fun _ _ => Nat.zero_le _, id⟩

/-- Where the check fails no further statement can be sent. -/
theorem not_allows_of_check {cause : Interruption} (h : p.budget.check = .error cause) : ¬p.Allows 1 := by
  rintro ⟨hbudget, -⟩
  unfold Budget.check at h
  split at h
  · contradiction
  · next hleft => exact absurd (hbudget 0 hleft) (by decide)
  · contradiction

/-- Where the connection refuses one no further statement can be sent. -/
theorem not_allows_of_send {fault : SendFault} (h : p.connection.send s = .error fault) : ¬p.Allows 1 := by
  rintro ⟨-, hconnection⟩
  unfold Connection.send at h
  split at h
  · next hfail =>
    rw [beq_iff_eq] at hfail
    omega
  · contradiction

/-- A check that passes uses up one of those that are left. -/
theorem left_of_check {b b' : Budget} (h : b.check = .ok b') (n : Nat) :
    (∀ left, b'.left = some left → n ≤ left) ↔ ∀ left, b.left = some left → n + 1 ≤ left := by
  unfold Budget.check at h
  split at h
  · next hleft =>
    obtain rfl := Except.ok.inj h
    simp [hleft]
  · contradiction
  · next m hleft =>
    obtain rfl := Except.ok.inj h
    simp [hleft]

/-- A statement that is sent was not the one to be refused, and is noted. -/
theorem send_eq_ok {c c' : Connection} (h : c.send s = .ok c') :
    c.failAt ≠ c.sent.length + 1 ∧ c' = { c with sent := s :: c.sent } := by
  unfold Connection.send at h
  split at h
  · contradiction
  · next hfail => exact ⟨by simpa using hfail, (Except.ok.inj h).symm⟩

/-- A statement that was sent leaves room for one less. -/
theorem allows_after {budget : Budget} {connection : Connection} (hcheck : p.budget.check = .ok budget)
    (hsend : p.connection.send s = .ok connection) (stats : ExportStats) (n : Nat) :
    Progress.Allows ⟨connection, budget, stats⟩ n ↔ p.Allows (n + 1) := by
  obtain ⟨hplace, rfl⟩ := send_eq_ok hsend
  refine and_congr (left_of_check hcheck n) ?_
  simp only [List.length_cons]
  omega

/-- An empty plan is sent at once. -/
theorem Sends.nil (p : Progress) : Sends p [] [] ⟨p, none⟩ where
  front := List.prefix_rfl
  recorded := by simp
  counted := rfl
  complete := by simp
  allowed := p.allows_zero
  stopped := absurd rfl
  remaining := by simp

/-- Nothing is sent if the first statement cannot be. -/
theorem Sends.refused (h : ¬p.Allows 1) (hconnection : q.connection = p.connection)
    (hstats : q.stats = p.stats) (error : ExportError) : Sends p (s :: plan) [] ⟨q, some error⟩ where
  front := List.nil_prefix
  recorded := by simp [hconnection]
  counted := by simp [hstats]
  complete := by simp
  allowed := p.allows_zero
  stopped := fun _ => h
  remaining := by simp

/-- One statement is sent, and the others from there on. -/
theorem Sends.cons (hrecorded : q.connection.statements = p.connection.statements ++ [s])
    (hcounted : q.stats.statements = p.stats.statements + 1) (hallows : ∀ n, q.Allows n ↔ p.Allows (n + 1))
    (h : Sends q plan sent o) : Sends p (s :: plan) (s :: sent) o where
  front := (List.cons_prefix_cons).mpr ⟨rfl, h.front⟩
  recorded := by rw [h.recorded, hrecorded, List.append_assoc, List.singleton_append]
  counted := by
    rw [h.counted, hcounted, List.length_cons]
    omega
  complete := by rw [h.complete, List.cons.injEq, and_iff_right rfl]
  allowed := (hallows _).mp h.allowed
  stopped hne hmore := h.stopped (fun heq => hne (congrArg _ heq)) ((hallows _).mpr hmore)
  remaining heq n := by
    rw [h.remaining (List.cons.inj heq).2, hallows, List.length_cons]
    exact iff_of_eq (congrArg p.Allows (by omega))

/-- A plan that failed fails alike when more statements would follow. -/
theorem Sends.extend (h : Sends p plan sent o) (hfailure : o.failure ≠ none) (plan' : List Statement) :
    Sends p (plan ++ plan') sent o := by
  have hne : sent ≠ plan := mt h.complete.mpr hfailure
  have hshort : sent.length < plan.length := by
    refine Nat.lt_of_le_of_ne h.front.length_le fun hlength => hne (h.front.eq_of_length hlength)
  have hne' : sent ≠ plan ++ plan' := by
    rintro rfl
    rw [List.length_append] at hshort
    omega
  exact { h with
    front := h.front.trans (List.prefix_append plan plan')
    complete := iff_of_false hfailure hne'
    stopped := fun _ => h.stopped hne
    remaining := fun heq => absurd heq hne' }

/-- After all statements of one plan come those of the next. -/
theorem Sends.append (h : Sends p plan sent o) (hfailure : o.failure = none)
    (hconnection : q.connection = o.progress.connection) (hbudget : q.budget = o.progress.budget)
    (hstats : q.stats.statements = o.progress.stats.statements) (h' : Sends q plan' sent' o') :
    Sends p (plan ++ plan') (plan ++ sent') o' := by
  obtain rfl := h.complete.mp hfailure
  have hallows : ∀ n, q.Allows n ↔ p.Allows (sent.length + n) := by
    intro n
    rw [← h.remaining rfl, Progress.Allows, Progress.Allows, hconnection, hbudget]
  constructor
  case front => exact (List.prefix_append_right_inj sent).mpr h'.front
  case recorded => rw [h'.recorded, hconnection, h.recorded, List.append_assoc]
  case counted =>
    rw [h'.counted, hstats, h.counted, List.length_append]
    omega
  case complete => rw [h'.complete, List.append_cancel_left_eq]
  case allowed => rw [List.length_append, ← hallows]; exact h'.allowed
  case stopped =>
    intro hne
    rw [List.length_append, Nat.add_assoc, ← hallows]
    exact h'.stopped fun heq => hne (congrArg _ heq)
  case remaining =>
    intro heq n
    rw [h'.remaining (List.append_cancel_left heq), hallows, List.length_append, Nat.add_assoc]

/-- A query over each of the chunks. -/
def queries (query : Text) (chunks : List (List Json)) : List Statement :=
  chunks.map fun rows => ⟨query, some rows⟩

/-- Chunks are sent in their order, one query for each. -/
theorem sendBatches_sends (phase : ExportPhase) (query : Text) (chunks : List (List Json)) (p : Progress) :
    ∃ sent, Sends p (queries query chunks) sent (sendBatches phase query chunks p) := by
  induction chunks generalizing p with
  | nil => exact ⟨[], Sends.nil p⟩
  | cons chunk chunks ih =>
    rw [sendBatches]
    cases hcheck : p.budget.check with
    | error cause => exact ⟨[], Sends.refused (not_allows_of_check hcheck) rfl rfl _⟩
    | ok budget =>
      cases hsend : p.connection.send ⟨query, some chunk⟩ with
      | error fault =>
        exact ⟨[], Sends.refused (q := { p with budget }) (not_allows_of_send hsend) rfl rfl _⟩
      | ok connection =>
        obtain ⟨sent, hsent⟩ := ih _
        refine ⟨_ :: sent, hsent.cons ?_ rfl (allows_after hcheck hsend _)⟩
        simp [(send_eq_ok hsend).2, Connection.statements]

/-- Three classes in two modules, one of which depends on the other. -/
def threeClasses : ClassGraph :=
  (ClassGraph.new "/p" ⟨9, 9⟩).runCalls [
    .addNode ⟨"a.A", "a", "/p/m/A", "m"⟩, .addNode ⟨"a.B", "a", "/p/m/B", "m"⟩,
    .addNode ⟨"k.C", "k", "/p/k/C", "k"⟩, .addEdge "a.B" "k.C" ⟨1⟩, .freeze 5]

end ClassAtlas.Export
