import ClassAtlas.Proofs.Collection.SortedMap
import ClassAtlas.Settings.Basic

namespace ClassAtlas

namespace DotEnv

/-- What a file of variables would set a variable to. -/
def setting (found : SortedMap Text Text) (name : Text) : Option Text :=
  (found.find? name).filter (isSettable name)

/-- A variable that is set keeps its value, and otherwise takes the one of the file. -/
theorem find?_overlay (vars found : SortedMap Text Text) (name : Text) :
    (overlay vars found).find? name = (vars.find? name).or (setting found name) := by
  have hfold : ∀ (entries : List (Text × Text)) (vars : SortedMap Text Text),
      (entries.map Prod.fst).Nodup →
      (entries.foldl (fun (vars : SortedMap Text Text) e =>
        if !isSettable e.1 e.2 || vars.contains e.1 then vars else vars.insert e.1 e.2) vars).find? name =
        (vars.find? name).or ((entries.lookup name).filter (isSettable name)) := by
    intro entries
    induction entries with
    | nil => simp
    | cons e rest ih =>
      obtain ⟨key, value⟩ := e
      intro vars hnodup
      rw [List.map_cons, List.nodup_cons] at hnodup
      rw [List.foldl_cons, ih _ hnodup.2, List.lookup_cons]
      by_cases hkey : name = key
      · subst hkey
        have hrest : rest.lookup name = none := by
          rw [List.lookup_eq_none_iff]
          intro e he
          have hne : name ≠ e.1 := by
            intro heq
            exact hnodup.1 (List.mem_map.mpr ⟨e, he, heq.symm⟩)
          simpa using hne
        cases hset : isSettable name value <;> cases hfind : vars.find? name <;>
          simp [hset, hfind, hrest, SortedMap.contains, Option.filter]
      · have hbeq : (name == key) = false := by simpa using hkey
        simp only [hbeq]
        split
        · rfl
        · rw [SortedMap.find?_insert_of_ne _ hkey]
  rw [overlay, hfold _ _ (SortedMap.increasingBy_toList found).nodup_map,
    SortedMap.lookup_toList, setting]

/-- A file of variables has nothing to add a second time. -/
theorem overlay_overlay (vars found : SortedMap Text Text) :
    overlay (overlay vars found) found = overlay vars found := by
  apply SortedMap.ext
  intro name
  simp only [find?_overlay]
  cases vars.find? name <;> cases setting found name <;> rfl

end DotEnv

namespace Settings

variable {d : Disk} {env env' : SortedMap Text Text}

/-- The variables that hold texts and lists. -/
def textVariables : List Text :=
  ["EXTENSION", "IGNORE_DIRS", "PATTERNS", "ENTRY_SUBDIR", "EXPOSE_DIR", "EXPOSE_EXCLUDE_SUFFIXES",
    "INFRA_DIR", "SNAPSHOT_DIR", "NEO4J_URI", "NEO4J_USER", "NEO4J_PASSWORD", "NEO4J_DATABASE"]

/-- The names of all variables that settings are read from. -/
def variableNames : List Text := textVariables ++ numberVariables.map (·.name)

/-- Two environments give settings the same values. -/
def Agree (env env' : SortedMap Text Text) : Prop :=
  ∀ name ∈ variableNames, fromEnv? env name = fromEnv? env' name

/-- Texts are taken from environments that agree alike. -/
theorem applyTexts_congr (h : Agree env env') (s : Settings) : applyTexts env s = applyTexts env' s := by
  have htexts : ∀ name ∈ textVariables, fromEnv? env name = fromEnv? env' name :=
    fun name hname => h name (List.mem_append_left _ hname)
  simp only [textVariables, List.mem_cons, List.not_mem_nil, or_false, forall_eq_or_imp,
    forall_eq] at htexts
  simp only [applyTexts, htexts]

/-- Numbers are taken alike from environments in which their variables agree. -/
theorem applyNumbers_congr {vars : List NumberVariable}
    (h : ∀ v ∈ vars, fromEnv? env v.name = fromEnv? env' v.name) (s : Settings) :
    applyNumbers env vars s = applyNumbers env' vars s := by
  induction vars generalizing s with
  | nil => rfl
  | cons v rest ih =>
    have hrest := ih fun w hw => h w (List.mem_cons_of_mem _ hw)
    simp only [applyNumbers, h v (List.mem_cons_self ..), hrest]

/-- Settings depend on no other variables. -/
theorem finish_congr (h : Agree env env') (s : Settings) : finish env s = finish env' s := by
  have hnumbers : ∀ v ∈ numberVariables, fromEnv? env v.name = fromEnv? env' v.name :=
    fun v hv => h v.name (List.mem_append_right _ (List.mem_map_of_mem hv))
  simp only [finish, applyEnv, applyTexts_congr h, applyNumbers_congr hnumbers]

/-- The settings of a project before the environment comes over them. -/
def ofFile (d : Disk) (root path : Text) : Except SettingsError Settings :=
  let file := if path.isEmpty then projectFile d root else path
  if file.isEmpty then .ok {} else overlayFile {} d file

/-- The variables in the file of a project; none if there is no such file. -/
def ownVariables (d : Disk) (root : Text) : Except SettingsError (SortedMap Text Text) :=
  if root.isEmpty then .ok SortedMap.empty
  else
    let path := Path.join [root, ".env"]
    match d.nodeAt true path with
    | .error .missing => .ok SortedMap.empty
    | _ =>
      match (d.readFile path).toOption.bind DotEnv.read? with
      | none => .error (.loading path)
      | some found => .ok found

/-- What loading leaves when its two files hold these. -/
def combine (env : SortedMap Text Text) :
    Except SettingsError Settings → Except SettingsError (SortedMap Text Text) → Loaded
  | .error e, _ => ⟨.error e, env⟩
  | .ok _, .error e => ⟨.error e, env⟩
  | .ok s, .ok found => ⟨finish (DotEnv.overlay env found) s, DotEnv.overlay env found⟩

/-- The file of settings and the file of variables do not depend on the environment. -/
theorem load_eq (d : Disk) (env : SortedMap Text Text) (root path : Text) :
    load d env root path = combine env (ofFile d root path) (ownVariables d root) := by
  have hfile : (if (if path.isEmpty then projectFile d root else path).isEmpty then .ok {}
      else overlayFile {} d (if path.isEmpty then projectFile d root else path)) =
      ofFile d root path := rfl
  have hown : (if root.isEmpty then .ok env else loadDotEnv d root env) =
      (ownVariables d root).map (DotEnv.overlay env) := by
    unfold ownVariables loadDotEnv
    split
    · rfl
    · dsimp only
      cases d.nodeAt true (Path.join [root, ".env"]) with
      | ok n => cases (d.readFile (Path.join [root, ".env"])).toOption.bind DotEnv.read? <;> rfl
      | error fault =>
        cases fault <;> cases (d.readFile (Path.join [root, ".env"])).toOption.bind DotEnv.read? <;> rfl
  unfold load
  dsimp only
  rw [hfile, hown]
  cases ofFile d root path with
  | error e => rfl
  | ok s =>
    cases ownVariables d root with
    | error e => rfl
    | ok found => rfl

/-- The variables that loading a project adds, as far as they are not set. -/
def added (d : Disk) (root path : Text) : SortedMap Text Text :=
  match ofFile d root path, ownVariables d root with
  | .ok _, .ok found => found
  | _, _ => SortedMap.empty

/-- Loading a project adds its variables to the environment, as far as they are not set. -/
theorem load_env (d : Disk) (env : SortedMap Text Text) (root path : Text) :
    (load d env root path).env = DotEnv.overlay env (added d root path) := by
  rw [load_eq, added]
  cases ofFile d root path with
  | error e => rfl
  | ok s => cases ownVariables d root <;> rfl

/-- Loading gives the same result wherever it leaves the same values of the variables. -/
theorem load_result_congr {root path : Text}
    (h : Agree (load d env root path).env (load d env' root path).env) :
    (load d env root path).result = (load d env' root path).result := by
  rw [load_eq, load_eq] at h ⊢
  cases hfile : ofFile d root path with
  | error e => rfl
  | ok s =>
    cases hown : ownVariables d root with
    | error e => rfl
    | ok found =>
      rw [hfile, hown] at h
      exact finish_congr h s

/-- Loading a project twice is loading it once. -/
theorem load_again (d : Disk) (env : SortedMap Text Text) (root path : Text) :
    load d (load d env root path).env root path = load d env root path := by
  have henv : (load d (load d env root path).env root path).env = (load d env root path).env := by
    rw [load_env, load_env, DotEnv.overlay_overlay]
  have hagree : Agree (load d (load d env root path).env root path).env (load d env root path).env :=
    fun _ _ => by rw [henv]
  have hresult := load_result_congr hagree
  calc load d (load d env root path).env root path
      = ⟨(load d (load d env root path).env root path).result,
          (load d (load d env root path).env root path).env⟩ := rfl
    _ = load d env root path := by rw [hresult, henv]

/-- What loading a project sets a variable to, if it is not set. -/
def ownSetting (d : Disk) (root name : Text) : Option Text :=
  DotEnv.setting (added d root []) (variableLead ++ name)

/-- A project adds nothing that another one would see: each variable of the settings is set already,
or the first project does not set it, or the second one sets it to the same value. -/
def Undisturbed (d : Disk) (env : SortedMap Text Text) (first root : Text) : Prop :=
  ∀ name ∈ variableNames, fromEnv? env name ≠ none ∨ ownSetting d first name = none ∨
    ownSetting d first name = ownSetting d root name

/-- The variables have the same values behind a project whether or not another one was loaded before,
exactly if the other one adds nothing that the project would see. -/
theorem agree_iff_undisturbed (d : Disk) (env : SortedMap Text Text) (first root : Text) :
    Agree (load d (load d env first []).env root []).env (load d env root []).env ↔
      Undisturbed d env first root := by
  unfold Agree Undisturbed
  refine forall₂_congr fun name _ => ?_
  simp only [fromEnv?, load_env, DotEnv.find?_overlay, ownSetting]
  cases env.find? (variableLead ++ name) with
  | some value => simp
  | none =>
    cases DotEnv.setting (added d first []) (variableLead ++ name) with
    | some value => simp
    | none => simp

end Settings

end ClassAtlas
