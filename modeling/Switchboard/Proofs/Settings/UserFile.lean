import Mathlib
import Switchboard.Proofs.FileTree.Resolution
import Switchboard.Settings.Load

namespace Switchboard

open Location (reaches_joinPath)

namespace UserDirs

variable {user : UserDirs}

theorem configDir_of_given {dir : String} (given : user.configHome = some dir) (filled : dir ≠ "") :
    user.configDir = dir := by
  simp [configDir, given, filled]

theorem configDir_of_not_given (home : user.home ≠ "")
    (unset : ∀ dir, user.configHome = some dir → dir = "") :
    user.configDir = user.home ++ slash user.home ++ ".config" := by
  rw [← joinPath_eq home (by decide), configDir]
  cases given : user.configHome with
  | none => rfl
  | some dir => exact if_pos (unset dir given)

theorem configDir_ne_empty (user : UserDirs) : user.configDir ≠ "" := by
  have under : joinPath user.home ".config" ≠ "" := joinPath_ne_empty (by decide)
  rw [configDir]
  split
  · split
    · exact under
    · assumption
  · exact under

theorem settingsPath_eq (user : UserDirs) :
    user.settingsPath = user.configDir ++ slash user.configDir ++ "lspx/lspx.toml" := by
  have filled : joinPath user.configDir "lspx" ≠ "" := joinPath_ne_empty (by decide)
  rw [settingsPath, joinPath_eq filled (by decide),
    joinPath_eq user.configDir_ne_empty (by decide), slash_append (by decide) (by decide)]
  simp only [String.append_assoc]
  rfl

theorem reaches_settingsPath {here place : Location} :
    here.Reaches user.settingsPath place ↔ ∃ entries above inner entry,
      here.Reaches user.configDir ⟨.dir entries, above⟩ ∧
      entries.lookup "lspx" = some (.dir inner) ∧ inner.lookup "lspx.toml" = some entry ∧
      place = ⟨entry, .dir inner :: .dir entries :: above⟩ := by
  have app : IsName "lspx" := by simp [IsName]
  have file : IsName "lspx.toml" := by simp [IsName]
  rw [settingsPath, reaches_joinPath (joinPath_ne_empty (by decide)) (by decide)]
  simp only [reaches_joinPath user.configDir_ne_empty (by decide : '/' ∉ "lspx".toList),
    Location.steps_name_iff app, Location.steps_name_iff file]
  constructor
  · rintro ⟨_, ⟨_, reaches, entries, above, _, rfl, there, rfl⟩, inner, _, entry, same, found, rfl⟩
    cases same
    exact ⟨entries, above, inner, entry, reaches, there, found, rfl⟩
  · rintro ⟨entries, above, inner, entry, reaches, there, found, rfl⟩
    exact ⟨_, ⟨_, reaches, entries, above, _, rfl, there, rfl⟩, inner, _, entry, rfl, found, rfl⟩

end UserDirs

namespace Settings

variable {here place : Location} {user : UserDirs} {path : String} {e : IoError}

theorem load_of_misses (misses : here.Misses path e) : load here path = .error (.io path e) := by
  rw [load, loadLogged, Location.readText_of_misses misses]

theorem load_of_unreadable (reaches : here.Reaches path place)
    (unreadable : place.node.Unreadable e) : load here path = .error (.io path e) := by
  rw [load, loadLogged, Location.readText_of_reaches reaches,
    FileTree.text_of_unreadable unreadable]

theorem load_of_text (reaches : here.Reaches path place) {s : String}
    (file : place.node = .file s.toUTF8) : load here path = (ofToml s).mapError .parse := by
  rw [load, loadLogged, Location.readText_of_reaches reaches, file, FileTree.text_of_text]
  dsimp only
  cases ofToml s <;> rfl

theorem loadUserLogged_of_unreached (unreached : ∀ place, ¬ here.Reaches user.settingsPath place) :
    loadUserLogged here user = ([], .ok {}) := by
  rw [loadUserLogged, if_neg]
  intro there
  obtain ⟨place, reaches⟩ := Location.pathExists_iff.mp there
  exact unreached place reaches

theorem loadUserLogged_of_reaches (reaches : here.Reaches user.settingsPath place) :
    loadUserLogged here user = loadLogged here user.settingsPath := by
  rw [loadUserLogged, if_pos (Location.pathExists_iff.mpr ⟨place, reaches⟩)]

theorem loadUser_of_unreached (unreached : ∀ place, ¬ here.Reaches user.settingsPath place) :
    loadUser here user = .ok {} := congrArg Prod.snd (loadUserLogged_of_unreached unreached)

theorem loadUser_of_reaches (reaches : here.Reaches user.settingsPath place) :
    loadUser here user = load here user.settingsPath :=
  congrArg Prod.snd (loadUserLogged_of_reaches reaches)

theorem logged_load (here : Location) (path : String) : (loadLogged here path).1 =
    match load here path with
    | .error (.io ..) => []
    | _ => [⟨"DEBUG", "lspx::config", "Loaded config from " ++ path⟩] := by
  unfold load loadLogged
  cases here.readText path with
  | error e => rfl
  | ok text =>
    dsimp only
    cases ofToml text <;> rfl

/-- An error of reading tells the path as it was given, and an entry that is there. -/
theorem loadUser_eq_io_iff {told : String} : loadUser here user = .error (.io told e) ↔
    told = user.settingsPath ∧
      ∃ place, here.Reaches user.settingsPath place ∧ place.node.Unreadable e := by
  constructor
  · intro failed
    by_cases there : ∃ place, here.Reaches user.settingsPath place
    · obtain ⟨place, reaches⟩ := there
      rw [loadUser_of_reaches reaches] at failed
      obtain ⟨e', unreadable⟩ | ⟨s, file⟩ := place.node.unreadable_or_text
      · cases failed.symm.trans (load_of_unreadable reaches unreadable)
        exact ⟨rfl, place, reaches, unreadable⟩
      · rw [load_of_text reaches file] at failed
        cases read : ofToml s <;> simp [read, Except.mapError] at failed
    · cases failed.symm.trans (loadUser_of_unreached (not_exists.mp there))
  · rintro ⟨rfl, place, reaches, unreadable⟩
    rw [loadUser_of_reaches reaches, load_of_unreadable reaches unreadable]

/-- How a user's settings are loaded, wherever their path leads. -/
structure LoadsUser (here : Location) (user : UserDirs) : Prop where
  path : user.settingsPath = user.configDir ++ slash user.configDir ++ "lspx/lspx.toml"
  given : ∀ dir, user.configHome = some dir → dir ≠ "" → user.configDir = dir
  notGiven : (∀ dir, user.configHome = some dir → dir = "") →
    user.configDir = user.home ++ slash user.home ++ ".config"
  leads : ∀ place, here.Reaches user.settingsPath place ↔ ∃ entries above inner entry,
    here.Reaches user.configDir ⟨.dir entries, above⟩ ∧
      entries.lookup "lspx" = some (.dir inner) ∧ inner.lookup "lspx.toml" = some entry ∧
      place = ⟨entry, .dir inner :: .dir entries :: above⟩
  absent : (∀ place, ¬ here.Reaches user.settingsPath place) →
    loadUser here user = .ok ⟨⟨"lspx", "0.1.0"⟩⟩ ∧
      ∃ e, (e = .notFound ∨ e = .notADirectory) ∧ here.Misses user.settingsPath e ∧
        load here user.settingsPath = .error (.io user.settingsPath e)
  present : ∀ place, here.Reaches user.settingsPath place →
    loadUser here user = load here user.settingsPath
  text : ∀ place s, here.Reaches user.settingsPath place → place.node = .file s.toUTF8 →
    load here user.settingsPath = (ofToml s).mapError .parse
  ioErrors : ∀ told e, loadUser here user = .error (.io told e) ↔ told = user.settingsPath ∧
    ∃ place, here.Reaches user.settingsPath place ∧ place.node.Unreadable e

/-- Loading a user's settings fails only over what is really there under their path. -/
theorem missing_file_is_no_error (here : Location) {user : UserDirs} (home : user.home ≠ "") :
    LoadsUser here user := by
  refine ⟨user.settingsPath_eq, ?_, ?_, ?_, ?_, ?_, ?_, ?_⟩
  · intro dir given filled
    exact UserDirs.configDir_of_given given filled
  · exact UserDirs.configDir_of_not_given home
  · intro place
    exact UserDirs.reaches_settingsPath
  · intro unreached
    obtain ⟨e, misses⟩ := Location.misses_of_unreached unreached
    exact ⟨loadUser_of_unreached unreached, e, misses.kind, misses, load_of_misses misses⟩
  · intro place reaches
    exact loadUser_of_reaches reaches
  · intro place s reaches file
    exact load_of_text reaches file
  · intro told e
    exact loadUser_eq_io_iff

/-- A file stands where the directory of the settings file should be. -/
theorem missing_file_is_no_error_below_file :
    let here : Location := ⟨.dir [("etc", .dir [("lspx", .file "old".toUTF8)])], []⟩
    let user : UserDirs := ⟨"/home/me", some "./etc/../etc/"⟩
    user.home ≠ "" ∧ LoadsUser here user ∧ loadUser here user = .ok ⟨⟨"lspx", "0.1.0"⟩⟩ := by
  intro here user
  have home : user.home ≠ "" := by decide
  have loads := missing_file_is_no_error here home
  have path : user.settingsPath = "./etc/../etc/lspx/lspx.toml" := by
    have closed : "./etc/../etc/".endsWith "/" = true :=
      endsWith_slash_iff.mpr ⟨"./etc/../etc", rfl⟩
    rw [loads.path, loads.given "./etc/../etc/" rfl (by decide), slash, if_pos closed]
    rfl
  have start : here.start "./etc/../etc/lspx/lspx.toml" = here := by simp [Location.start]
  have resolved : here.resolve user.settingsPath = .error .notADirectory := by
    rw [path, Location.resolve, if_neg (by decide), start]
    rfl
  refine ⟨home, loads, (loads.absent ?_).1⟩
  intro place reaches
  cases resolved.symm.trans (Location.resolve_eq_ok_iff.mpr reaches)

end Settings

end Switchboard
