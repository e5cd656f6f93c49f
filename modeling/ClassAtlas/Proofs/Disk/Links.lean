import ClassAtlas.Proofs.Disk.Tree

namespace ClassAtlas

namespace Disk

variable {d : Disk} {follow : Bool} {spot todo place : List Text}
  {through through' : List Text → List Text → Except DiskFault (List Text)}

/-- What one segment of a path can do: stop the walk, lead to another place, or lead to a link, which
is followed unless it is the end of the path and is not to be followed. -/
theorem walk_cons_cases (d : Disk) (spot : List Text) (segment : Text) :
    (∃ fault, fault ≠ .tooManyLinks ∧
      ∀ follow through rest, d.walk follow through spot (segment :: rest) = .error fault) ∨
    (∃ next, ∀ follow through rest,
      d.walk follow through spot (segment :: rest) = d.walk follow through next rest) ∨
    ∃ start target found, d.node? (spot ++ [segment]) = some (.link found) ∧
      ∀ follow through rest, d.walk follow through spot (segment :: rest) =
        if rest.isEmpty && !follow then .ok (spot ++ [segment]) else through start (target ++ rest) := by
  by_cases hspot : d.node? spot = some .directory
  · by_cases hhere : (segment == Path.here) = true
    · exact Or.inr (Or.inl ⟨spot, by simp [walk, hspot, hhere]⟩)
    · by_cases hup : (segment == Path.up) = true
      · exact Or.inr (Or.inl ⟨spot.dropLast, by simp [walk, hspot, hhere, hup]⟩)
      · cases hnode : d.node? (spot ++ [segment]) with
        | none => exact Or.inl ⟨.missing, by simp, by simp [walk, hspot, hhere, hup, hnode]⟩
        | some n =>
          cases n with
          | directory => exact Or.inr (Or.inl ⟨spot ++ [segment], by simp [walk, hspot, hhere, hup, hnode]⟩)
          | file t => exact Or.inr (Or.inl ⟨spot ++ [segment], by simp [walk, hspot, hhere, hup, hnode]⟩)
          | link found =>
            refine Or.inr (Or.inr ⟨if Path.isAbsolute found then [] else spot, Path.segments found,
              found, rfl, ?_⟩)
            simp [walk, hspot, hhere, hup, hnode]
  · refine Or.inl ⟨.notDirectory, by simp, ?_⟩
    intro follow through rest
    rw [walk]
    split
    · contradiction
    · rfl

/-- Unless there are too many links, a walk ends alike where more links may be followed. -/
theorem walk_mono (hthrough : ∀ start todo, through start todo ≠ .error .tooManyLinks →
      through' start todo = through start todo)
    (h : d.walk follow through spot todo ≠ .error .tooManyLinks) :
    d.walk follow through' spot todo = d.walk follow through spot todo := by
  induction todo generalizing spot with
  | nil => rfl
  | cons segment rest ih =>
    obtain ⟨fault, -, hstop⟩ | ⟨next, hnext⟩ | ⟨start, target, found, -, hlink⟩ :=
      walk_cons_cases d spot segment
    · rw [hstop, hstop]
    · rw [hnext] at h
      rw [hnext, hnext, ih h]
    · rw [hlink] at h
      rw [hlink, hlink]
      split
      · rfl
      · next hgo =>
        rw [if_neg hgo] at h
        exact hthrough _ _ h

/-- One more link makes no difference unless there were too many. -/
theorem walkTo_succ {links : Nat} (h : d.walkTo follow links spot todo ≠ .error .tooManyLinks) :
    d.walkTo follow (links + 1) spot todo = d.walkTo follow links spot todo := by
  induction links generalizing spot todo with
  | zero => exact walk_mono (fun _ _ hnone => absurd rfl hnone) h
  | succ links ih => exact walk_mono (fun _ _ hsome => ih hsome) h

/-- More links do not change where a path leads. -/
theorem walkTo_mono {links links' : Nat} (hle : links ≤ links')
    (h : d.walkTo follow links spot todo ≠ .error .tooManyLinks) :
    d.walkTo follow links' spot todo = d.walkTo follow links spot todo := by
  induction links', hle using Nat.le_induction with
  | base => rfl
  | succ links' _ ih => rw [walkTo_succ (by rwa [ih]), ih]

/-- A walk through links can be continued from the place it leads to, with the links that are left. -/
theorem walk_append {links : Nat}
    (hself : ∀ place more, d.walk true through place more = d.walkTo true links place more)
    (hthrough : ∀ start todo place, through start todo = .ok place →
      ∃ left ≤ links, ∀ more, through start (todo ++ more) = d.walkTo true left place more)
    (h : d.walk true through spot todo = .ok place) :
    ∃ left ≤ links, ∀ more, d.walk true through spot (todo ++ more) = d.walkTo true left place more := by
  induction todo generalizing spot with
  | nil =>
    obtain rfl := Except.ok.inj h
    exact ⟨links, Nat.le_refl _, hself spot⟩
  | cons segment rest ih =>
    obtain ⟨fault, -, hstop⟩ | ⟨next, hnext⟩ | ⟨start, target, found, -, hlink⟩ :=
      walk_cons_cases d spot segment
    · rw [hstop] at h
      contradiction
    · rw [hnext] at h
      simpa only [List.cons_append, hnext] using ih h
    · rw [hlink] at h
      simpa [hlink] using hthrough start (target ++ rest) place (by simpa using h)

/-- A path that leads to a place is followed further from there, with the links that are left. -/
theorem walkTo_append {links : Nat} (h : d.walkTo true links spot todo = .ok place) :
    ∃ left ≤ links, ∀ more,
      d.walkTo true links spot (todo ++ more) = d.walkTo true left place more := by
  induction links generalizing spot todo place with
  | zero =>
    refine walk_append (fun _ _ => rfl) ?_ h
    intro start todo place hnone
    contradiction
  | succ links ih =>
    refine walk_append (fun _ _ => rfl) ?_ h
    intro start todo place hplace
    obtain ⟨left, hle, hmore⟩ := ih hplace
    exact ⟨left, by omega, hmore⟩

/-- If a walk ends at no link, it does not matter whether a link at the end would be followed. -/
theorem walk_follow
    (hthrough : ∀ start todo, through start todo = .ok place → through' start todo = .ok place)
    (hplace : ∀ target, d.node? place ≠ some (.link target))
    (h : d.walk false through spot todo = .ok place) : d.walk true through' spot todo = .ok place := by
  induction todo generalizing spot with
  | nil => exact h
  | cons segment rest ih =>
    obtain ⟨fault, -, hstop⟩ | ⟨next, hnext⟩ | ⟨start, target, found, hfound, hlink⟩ :=
      walk_cons_cases d spot segment
    · rw [hstop] at h
      contradiction
    · rw [hnext] at h
      rw [hnext, ih h]
    · rw [hlink] at h
      rw [hlink]
      split at h
      · obtain rfl := Except.ok.inj h
        exact absurd hfound (hplace found)
      · simpa using hthrough _ _ h

/-- With any number of links, a path that ends at no link leads to the same place when a link at the end
would be followed. -/
theorem walkTo_follow {links : Nat} (hplace : ∀ target, d.node? place ≠ some (.link target))
    (h : d.walkTo false links spot todo = .ok place) : d.walkTo true links spot todo = .ok place := by
  induction links generalizing spot todo with
  | zero =>
    refine walk_follow ?_ hplace h
    intro start todo hnone
    contradiction
  | succ links ih => exact walk_follow (fun _ _ hlinks => ih hlinks) hplace h

/-- A path that is itself no link leads to the same place whether a link at its end is followed or not. -/
theorem resolve_follow {path : Text} (hplace : ∀ target, d.node? place ≠ some (.link target))
    (h : d.resolve false path = .ok place) : d.resolve true path = .ok place := by
  unfold resolve at h ⊢
  split at h
  · contradiction
  · next hpath =>
    rw [if_neg hpath]
    exact walkTo_follow hplace h

/-- Names of directories lead from one to the next, without a link. -/
theorem walk_names {names : List Text} (hnames : ∀ s ∈ names, Path.IsName s)
    (h : ∀ front, front <+: names → d.node? (spot ++ front) = some .directory) (rest : List Text) :
    d.walk follow through spot (names ++ rest) = d.walk follow through (spot ++ names) rest := by
  induction names generalizing spot with
  | nil => simp
  | cons name names ih =>
    have hspot : d.node? spot = some .directory := by simpa using h [] List.nil_prefix
    have hnext : d.node? (spot ++ [name]) = some .directory := h [name] (by simp)
    obtain ⟨-, hhere, hup⟩ := hnames name List.mem_cons_self
    have hbelow : ∀ front, front <+: names → d.node? (spot ++ [name] ++ front) = some .directory := by
      intro front hfront
      rw [List.append_assoc]
      exact h (name :: front) ((List.prefix_cons_inj name).mpr hfront)
    rw [List.cons_append, walk, hspot]
    simp only [beq_iff_eq, hhere, hup, if_false, hnext]
    rw [ih (fun s hs => hnames s (List.mem_cons_of_mem _ hs)) hbelow, List.append_assoc]
    rfl

/-- The path of a place. -/
def pathOf (place : List Text) : Text := Path.ofSegments true place

/-- The segments of the path of a place are the names on its way. -/
theorem segments_pathOf (hnames : ∀ s ∈ place, Path.IsName s) : Path.segments (pathOf place) = place := by
  rw [pathOf, Path.ofSegments, if_pos rfl, Path.segments_slash]
  exact Path.segments_join fun s hs => (hnames s hs).1

/-- The path of a place is clean. -/
theorem isClean_pathOf (hnames : ∀ s ∈ place, Path.IsName s) : Path.IsClean (pathOf place) := by
  have habsolute : Path.isAbsolute (pathOf place) = true := rfl
  have hsegments : Path.cleanSegments (pathOf place) = place := by
    rw [Path.cleanSegments, segments_pathOf hnames, habsolute, Path.foldl_push_names hnames,
      List.append_nil, List.reverse_reverse]
  refine ⟨habsolute, ?_⟩
  rw [Path.clean_of_isAbsolute habsolute, hsegments]
  rfl

/-- An absolute path is followed from the top, whatever the working directory is. -/
theorem resolve_of_isAbsolute {path : Text} (hpath : Path.isAbsolute path = true) :
    d.resolve follow path = d.walkTo follow maxLinks [] (Path.segments path) := by
  obtain ⟨rest, hrest⟩ := Path.isAbsolute_iff.mp hpath
  have hne : path.isEmpty = false := by simp [hrest]
  simp [resolve, hne, locate, hpath]

/-- Names behind a clean path are followed behind its segments. -/
theorem resolve_join_names {path : Text} {names : List Text} (hpath : Path.IsClean path)
    (hnames : ∀ s ∈ names, Path.IsName s) : d.resolve follow (Path.join (path :: names)) =
      d.walkTo follow maxLinks [] (Path.segments path ++ names) := by
  rw [resolve_of_isAbsolute (Path.isClean_join hpath.1 names).1,
    Path.segments_join_names hpath.1 hnames, ← Path.segments_clean hpath.1, hpath.2]

variable {top rel : List Text} {path : Text}

/-- The way to a directory of a tree uses no link. -/
theorem IsTree.walkTo_top (hd : d.IsTree) (htop : d.node? top = some .directory) (links : Nat)
    (rest : List Text) :
    d.walkTo follow links [] (top ++ rest) = d.walkTo follow links top rest := by
  have hnames := hd.isName htop
  have hfronts : ∀ front, front <+: top → d.node? ([] ++ front) = some .directory := by
    rintro front ⟨back, rfl⟩
    by_cases hback : back = []
    · simpa [hback] using htop
    · exact hd.directory_of_prefix hback htop
  cases links <;> exact walk_names hnames hfronts rest

/-- What lies below a directory is looked for from there, with all links still to use. -/
theorem IsTree.resolve_pathOf (hd : d.IsTree) (htop : d.node? top = some .directory)
    (hrel : ∀ s ∈ rel, Path.IsName s) :
    d.resolve follow (Path.join (pathOf top :: rel)) = d.walkTo follow maxLinks top rel := by
  have hnames := hd.isName htop
  rw [resolve_join_names (isClean_pathOf hnames) hrel, segments_pathOf hnames, hd.walkTo_top htop]

/-- What lies below a directory is found by every path that leads to the directory, unless it leads
through too many links. -/
theorem IsTree.resolve_below (hd : d.IsTree) (hpath : Path.IsClean path)
    (hresolve : d.resolve true path = .ok top) (htop : d.node? top = some .directory)
    (hrel : ∀ s ∈ rel, Path.IsName s)
    (h : d.resolve true (Path.join (path :: rel)) ≠ .error .tooManyLinks) :
    d.resolve true (Path.join (path :: rel)) = d.resolve true (Path.join (pathOf top :: rel)) := by
  have hwalk : d.walkTo true maxLinks [] (Path.segments path) = .ok top := by
    rw [← resolve_of_isAbsolute hpath.1, hresolve]
  -- the path may have used up some links on the way to the directory, the real path none
  obtain ⟨left, hle, hmore⟩ := walkTo_append hwalk
  rw [resolve_join_names hpath hrel, hmore] at h ⊢
  rw [hd.resolve_pathOf htop hrel, walkTo_mono hle h]

/-- The path of a directory leads to it. -/
theorem IsTree.resolve_pathOf_self (hd : d.IsTree) (htop : d.node? top = some .directory) :
    d.resolve follow (pathOf top) = .ok top := by
  have hwalk : d.walkTo follow maxLinks [] (top ++ []) = d.walkTo follow maxLinks top [] :=
    hd.walkTo_top htop maxLinks []
  rw [List.append_nil] at hwalk
  rw [resolve_of_isAbsolute rfl, segments_pathOf (hd.isName htop), hwalk]
  rfl

/-- No file below the directory `top` that can be read is out of reach through the path for its links. -/
def WithinLinks (d : Disk) (path : Text) (top : List Text) : Prop :=
  ∀ e ∈ d.below top, ∀ t, d.readFile (Path.join (pathOf top :: e.1)) = .ok t →
    d.resolve true (Path.join (path :: e.1)) ≠ .error .tooManyLinks

/-- What lies below a directory is read alike through every path that leads to the directory. -/
theorem IsTree.readFile_below (hd : d.IsTree) (hpath : Path.IsClean path)
    (hresolve : d.resolve true path = .ok top) (htop : d.node? top = some .directory)
    (hlinks : d.WithinLinks path top) {e : Entry} (he : e ∈ d.below top) {t : Text} :
    d.readFile (Path.join (path :: e.1)) = .ok t ↔
      d.readFile (Path.join (pathOf top :: e.1)) = .ok t := by
  have hrel := hd.isName_below (mem_below_iff.mp he).2
  have hsame := hd.resolve_below hpath hresolve htop hrel
  constructor
  · intro hread
    obtain ⟨place, hplace, hfile⟩ := readFile_eq_ok_iff.mp hread
    have heq := hsame (by simp [hplace])
    exact readFile_eq_ok_iff.mpr ⟨place, heq ▸ hplace, hfile⟩
  · intro hread
    obtain ⟨place, hplace, hfile⟩ := readFile_eq_ok_iff.mp hread
    have heq := hsame (hlinks e he t hread)
    exact readFile_eq_ok_iff.mpr ⟨place, heq.trans hplace, hfile⟩

end Disk

end ClassAtlas
