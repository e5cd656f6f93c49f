import ClassAtlas.Proofs.Export.Batches

namespace ClassAtlas.Export

variable {size : Nat} {l : Load} {query query' : Text} {chunks : List (List Json)}
  {part sofar sent : List Statement}

/-- The rows of the statements with a query. -/
def rowsUnder (query : Text) (sent : List Statement) : List Json :=
  (sent.filter (·.query == query)).flatMap (·.rows.getD [])

/-- The numbers of rows of each kind in statements, and the number of the statements. -/
def written (sent : List Statement) : ExportStats where
  modules := (rowsUnder moduleQuery sent).length
  classes := (rowsUnder classQuery sent).length
  classEdges := (rowsUnder classEdgeQuery sent).length
  moduleEdges := (rowsUnder moduleEdgeQuery sent).length
  statements := sent.length

/-- The rows of more statements come behind those before. -/
@[simp] theorem rowsUnder_append (query : Text) (sent sent' : List Statement) :
    rowsUnder query (sent ++ sent') = rowsUnder query sent ++ rowsUnder query sent' := by
  simp [rowsUnder]

/-- All rows of the chunks stand under their query. -/
theorem rowsUnder_queries (query : Text) (chunks : List (List Json)) :
    rowsUnder query (queries query chunks) = chunks.flatten := by
  induction chunks with
  | nil => rfl
  | cons chunk chunks ih =>
    rw [List.flatten_cons, ← ih]
    simp [rowsUnder, queries]

/-- No row stands under another query. -/
theorem rowsUnder_queries_of_ne (h : query' ≠ query) (chunks : List (List Json)) :
    rowsUnder query (queries query' chunks) = [] := by
  simp [rowsUnder, queries, h]

/-- A statement over a chunk has rows, so what was sent of a part can be told from nothing. -/
theorem rowsUnder_ne_nil_of_prefix (hchunks : ∀ chunk ∈ chunks, chunk ≠ [])
    (hpart : part <+: queries query chunks) (hne : part ≠ []) : rowsUnder query part ≠ [] := by
  cases chunks with
  | nil => exact absurd (List.prefix_nil.mp hpart) hne
  | cons chunk chunks =>
    cases part with
    | nil => exact absurd rfl hne
    | cons s part =>
      obtain ⟨rfl, -⟩ := List.cons_prefix_cons.mp hpart
      have hchunk := hchunks chunk List.mem_cons_self
      simp [rowsUnder, hchunk]

/-- The statements of the four parts differ. -/
theorem nodup_queries : [moduleQuery, classQuery, classEdgeQuery, moduleEdgeQuery].Nodup := by
  decide

/-- The statements of a part. -/
def Load.statements (size : Nat) (l : Load) : List Statement := queries l.query (batches size l.rows)

/-- Counting a part adds its rows to those of the statements that were sent before it. -/
def Load.Counts (size : Nat) (l : Load) : Prop :=
  ∀ sofar, rowsUnder l.query sofar = [] → ∀ n, l.counted { written sofar with statements := n } =
    { written (sofar ++ l.statements size) with statements := n }

/-- Every part of an export counts its rows. -/
theorem counts_of_mem_loads {g : ClassGraph} (hsize : 0 < size) (hl : l ∈ loads g) : l.Counts size := by
  have hqueries := nodup_queries
  simp only [List.nodup_cons, List.mem_cons, List.not_mem_nil, or_false, not_or] at hqueries
  obtain ⟨⟨hmc, hme, hmm⟩, ⟨hce, hcm⟩, hem, -⟩ := hqueries
  intro sofar hnone n
  simp only [loads, List.mem_cons, List.not_mem_nil, or_false] at hl
  rcases hl with rfl | rfl | rfl | rfl
  all_goals
    simp only at hnone
    simp only [written, Load.statements, rowsUnder_append, rowsUnder_queries, (cuts_batches hsize _).joined, hnone,
      List.nil_append, List.length_map, rowsUnder_queries_of_ne, List.append_nil, ne_eq, not_false_eq_true,
      hmc, hme, hmm, hce, hcm, hem, Ne.symm hmc, Ne.symm hme, Ne.symm hmm, Ne.symm hce, Ne.symm hcm, Ne.symm hem]

/-- Sending batches leaves the numbers of rows alone, and a failure names the part. -/
theorem sendBatches_leaves (phase : ExportPhase) (query : Text) (chunks : List (List Json)) (p : Progress) :
    let done := sendBatches phase query chunks p
    (∃ n, done.progress.stats = { p.stats with statements := n }) ∧
      ∀ error, done.failure = some error → ∃ fault, error = .sending phase fault := by
  induction chunks generalizing p with
  | nil => exact ⟨⟨_, rfl⟩, by simp [sendBatches]⟩
  | cons chunk chunks ih =>
    rw [sendBatches]
    cases hcheck : p.budget.check with
    | error cause => exact ⟨⟨_, rfl⟩, fun error herror => ⟨_, (Option.some.inj herror).symm⟩⟩
    | ok budget =>
      cases hsend : p.connection.send ⟨query, some chunk⟩ with
      | error fault => exact ⟨⟨_, rfl⟩, fun error herror => ⟨_, (Option.some.inj herror).symm⟩⟩
      | ok connection =>
        obtain ⟨⟨n, hstats⟩, hfailure⟩ := ih _
        exact ⟨⟨n, hstats⟩, hfailure⟩

/-- How a load ends. The parts `before` are written and counted; it fails in the first part of `after`, if
there is one, when it has sent `part` of that one and not counted it. -/
structure Ends (size : Nat) (p : Progress) (sofar : List Statement) (before after : List Load)
    (part : List Statement) (o : Outcome) : Prop where
  recorded : o.progress.connection.statements =
    p.connection.statements ++ (before.flatMap (·.statements size) ++ part)
  counted : o.progress.stats = { written (sofar ++ before.flatMap (·.statements size)) with
    statements := (sofar ++ before.flatMap (·.statements size) ++ part).length }
  finished : o.failure = none → after = [] ∧ part = []
  failed : ∀ error, o.failure = some error → ∃ l rest fault, after = l :: rest ∧
    error = .sending l.phase fault ∧ part <+: l.statements size ∧ part ≠ l.statements size

/-- Parts with different queries are loaded one after the other, up to the first failure. -/
theorem runLoads_ends (ls : List Load) (hcounts : ∀ l ∈ ls, l.Counts size) (hnodup : (ls.map (·.query)).Nodup)
    (sofar : List Statement) (hnew : ∀ l ∈ ls, rowsUnder l.query sofar = []) (p : Progress)
    (hstats : p.stats = written sofar) :
    ∃ before after part, ls = before ++ after ∧ Ends size p sofar before after part (runLoads size ls p) := by
  induction ls generalizing p sofar with
  | nil =>
    refine ⟨[], [], [], rfl, by simp [runLoads], ?_, fun _ => ⟨rfl, rfl⟩, by simp [runLoads]⟩
    simp [runLoads, hstats, written]
  | cons l ls ih =>
    obtain ⟨hl, hls⟩ := List.forall_mem_cons.mp hcounts
    obtain ⟨hlnew, hlsnew⟩ := List.forall_mem_cons.mp hnew
    obtain ⟨sent, hsent⟩ := sendBatches_sends l.phase l.query (batches size l.rows) p
    obtain ⟨⟨n, hsame⟩, hphase⟩ := sendBatches_leaves l.phase l.query (batches size l.rows) p
    have hn : n = (sofar ++ sent).length := by
      have := hsent.counted
      rw [hsame, hstats] at this
      simpa [written] using this
    rw [hstats, hn] at hsame
    rw [runLoads]
    cases hfailure : (sendBatches l.phase l.query (batches size l.rows) p).failure with
    | some error =>
      obtain ⟨fault, rfl⟩ := hphase error hfailure
      have hshort : sent ≠ l.statements size := mt hsent.complete.mpr (by simp [hfailure])
      refine ⟨[], l :: ls, sent, rfl, by simpa using hsent.recorded, ?_, by simp [hfailure], ?_⟩
      · simpa using hsame
      · intro error herror
        rw [hfailure] at herror
        exact ⟨l, ls, fault, rfl, (Option.some.inj herror).symm, hsent.front, hshort⟩
    | none =>
      obtain rfl : sent = l.statements size := hsent.complete.mp hfailure
      -- the numbers are right again once the part is counted
      have hright : l.counted (sendBatches l.phase l.query (batches size l.rows) p).progress.stats =
          written (sofar ++ l.statements size) := by
        rw [hsame, hl sofar hlnew]
        rfl
      have hother : ∀ l' ∈ ls, rowsUnder l'.query (sofar ++ l.statements size) = [] := by
        intro l' hl'
        have hne : l.query ≠ l'.query := fun heq =>
          (List.nodup_cons.mp hnodup).1 (List.mem_map.mpr ⟨l', hl', heq.symm⟩)
        rw [rowsUnder_append, hlsnew l' hl', Load.statements, rowsUnder_queries_of_ne hne, List.nil_append]
      obtain ⟨before, after, part, rfl, hends⟩ := ih hls (List.nodup_cons.mp hnodup).2 _ hother ⟨_, _, _⟩ hright
      refine ⟨l :: before, after, part, rfl, ?_, ?_, hends.finished, hends.failed⟩
      · rw [hends.recorded]
        simp [hsent.recorded]
      · rw [hends.counted]
        simp

/-- The size of a chunk is positive, whatever is wished for. -/
theorem batchSize_pos (wish : Int) : 0 < batchSize wish := by
  unfold batchSize
  split
  · omega
  · decide

/-- The numbers tell how many rows each part has. -/
theorem length_rowsUnder_eq {g : ClassGraph} (hl : l ∈ loads g) {n : Nat}
    (h : { written sofar with statements := n } = written sent) :
    (rowsUnder l.query sofar).length = (rowsUnder l.query sent).length := by
  simp only [written, ExportStats.mk.injEq] at h
  obtain ⟨hmodules, hclasses, hclassEdges, hmoduleEdges, -⟩ := h
  simp only [loads, List.mem_cons, List.not_mem_nil, or_false] at hl
  rcases hl with rfl | rfl | rfl | rfl
  · exact hmodules
  · exact hclasses
  · exact hclassEdges
  · exact hmoduleEdges

/-- The numbers that a load returns are those of the rows in the parts that it finished. Of the part in which
it failed, if any, it may have sent some statements, and their rows are not counted. So the numbers are those
of all rows that were written exactly if it had sent nothing of that part. -/
theorem load_counts_written_iff (g : ClassGraph) (wish : Int) (c : Connection) (budget : Budget) :
    let size := batchSize wish
    let done := load size (some g) ⟨c, budget, .zero⟩
    ∃ before after part, loads g = before ++ after ∧
      let whole := before.flatMap (·.statements size)
      done.progress.connection.statements = c.statements ++ (whole ++ part) ∧
      done.progress.stats = { written whole with statements := (whole ++ part).length } ∧
      (done.failure = none → after = [] ∧ part = []) ∧
      (∀ error, done.failure = some error → ∃ l rest fault, after = l :: rest ∧
        error = .sending l.phase fault ∧ part <+: l.statements size ∧ part ≠ l.statements size) ∧
      (done.progress.stats = written (whole ++ part) ↔ part = []) := by
  intro size done
  have hsize : 0 < size := batchSize_pos wish
  obtain ⟨before, after, part, hsplit, hends⟩ := runLoads_ends (loads g)
    (fun l hl => counts_of_mem_loads hsize hl) nodup_queries [] (fun l _ => rfl) ⟨c, budget, .zero⟩ rfl
  refine ⟨before, after, part, hsplit, hends.recorded, hends.counted, hends.finished, hends.failed, ?_, ?_⟩
  · intro hright
    apply Classical.byContradiction
    intro hne
    cases hfailure : done.failure with
    | none => exact hne (hends.finished hfailure).2
    | some error =>
      obtain ⟨l, rest, fault, rfl, -, hpart, -⟩ := hends.failed error hfailure
      have hl : l ∈ loads g := by simp [hsplit]
      have hlength := length_rowsUnder_eq hl (hends.counted.symm.trans hright)
      rw [List.nil_append, rowsUnder_append, List.length_append] at hlength
      have hrows := rowsUnder_ne_nil_of_prefix (cuts_batches hsize l.rows).nonempty hpart hne
      have := List.length_pos_iff.mpr hrows
      omega
  · rintro rfl
    rw [show done.progress.stats = _ from hends.counted, List.append_nil, List.append_nil]
    rfl

/-- The second statement over the classes fails, and the two classes of the first one are not counted. -/
theorem load_leaves_rows_uncounted :
    let done := load 2 (some threeClasses) ⟨.fresh 3, .unlimited, .zero⟩
    done.failure = some (.sending .classes .refused) ∧ done.progress.stats = ⟨2, 0, 0, 0, 2⟩ ∧
      written done.progress.connection.statements = ⟨2, 2, 0, 0, 2⟩ := by
  decide +kernel

end ClassAtlas.Export
