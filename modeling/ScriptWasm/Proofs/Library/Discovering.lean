import Mathlib.Data.List.Basic
import ScriptWasm.Library.Discovery
import ScriptWasm.Proofs.Files.Additions
import ScriptWasm.Proofs.Library.Packing

/-!
# What is discovered

Discovery only looks at files, so what it finds depends on how they look: what can be read, what
directories show, and what is a regular file. The runtime and the references have to load, in this
order, and the operators have to be found in the runtime. What a directory offers does not depend on
the order in which it shows its names, and additions that are passed over do not change it: names
with another extension, what is no regular file, and files that cannot be read or are no libraries.
-/

namespace ScriptWasm

/-- How files look at one moment. -/
structure FileView where
  read : Path → Except FileError Bytes
  list : Path → Except FileError (List String)
  isFile : Path → Bool

/-- Files that stay as they are when they are looked at. -/
class ViewedFiles (σ : Type) extends Files (StateM σ) where
  view : σ → FileView
  read_apply : ∀ p s, read p s = ((view s).read p, s)
  list_apply : ∀ p s, list p s = ((view s).list p, s)
  isFile_apply : ∀ p s, isFile p s = ((view s).isFile p, s)

def FileTree.view (t : FileTree) : FileView := ⟨t.read, t.list, t.isFile⟩

instance : ViewedFiles FileTree where
  view := FileTree.view
  read_apply _ _ := rfl
  list_apply _ _ := rfl
  isFile_apply _ _ := rfl

namespace FileView

variable (v : FileView)

/-- The library in a file. -/
def load (p : Path) : Except LoadFailure LoadedLibrary :=
  match v.read p with
  | .error e => .error (.file e)
  | .ok bytes => LoadedLibrary.ofBytes p bytes

/-- The names that a directory shows, which are none if it shows nothing. -/
def names (dir : Path) : List String :=
  match v.list dir with
  | .error _ => []
  | .ok names => names

/-- The library with a name in a directory: a regular file with the right extension that loads. -/
def libraryAt? (dir : Path) (name : String) : Option LoadedLibrary :=
  if (dir.join name).hasExtension libraryExtension && v.isFile (dir.join name) then
    (v.load (dir.join name)).toOption
  else none

/-- The libraries of a directory are those of its names, in the order of the names. -/
def Offers (dir? : Option Path) (libraries : List LoadedLibrary) : Prop :=
  match dir? with
  | none => libraries = []
  | some dir => ∃ names : List String, names.Perm (v.names dir) ∧ names.Pairwise (· ≤ ·) ∧
      libraries = names.filterMap (v.libraryAt? dir)

end FileView

namespace DiscoveryConfig

/-- How discovery fails: the first thing that goes wrong is reported. -/
inductive Fails (config : DiscoveryConfig) (v : FileView) : DiscoveryError → Prop
  | runtime {cause : LoadFailure} (hruntime : v.load config.runtime = .error cause) :
      Fails config v (.runtimeLoad config.runtime cause)
  | reference {runtime : LoadedLibrary} {before after : List Path} {loaded : List LoadedLibrary}
      {p : Path} {cause : LoadFailure}
      (hruntime : v.load config.runtime = .ok runtime)
      (hreferences : config.references = before ++ p :: after)
      (hbefore : before.map v.load = loaded.map .ok)
      (hp : v.load p = .error cause) : Fails config v (.referenceLoad p cause)
  | operators {runtime : LoadedLibrary} {references : List LoadedLibrary} {e : BindingError}
      (hruntime : v.load config.runtime = .ok runtime)
      (hreferences : config.references.map v.load = references.map .ok)
      (hoperators : Bindings.resolve runtime.library = .error e) : Fails config v (.binding e)

/-- What is discovered: the runtime, the references and the libraries of the two directories,
scanned in this order. -/
inductive Finds (config : DiscoveryConfig) (v : FileView) : Discovery → Prop
  | mk {runtime : LoadedLibrary} {references bundled user : List LoadedLibrary}
      {operators : Bindings}
      (hruntime : v.load config.runtime = .ok runtime)
      (hreferences : config.references.map v.load = references.map .ok)
      (hbundled : v.Offers config.bundled? bundled)
      (huser : v.Offers config.user? user)
      (hoperators : Bindings.resolve runtime.library = .ok operators) :
      Finds config v
        { host :=
            { registry :=
                .scan ((runtime :: references ++ bundled ++ user).map (·.library))
              operators := operators }
          runtime := config.runtime
          references := config.references
          libraryFiles := (bundled ++ user).map (·.path) }

end DiscoveryConfig

namespace FileView

variable {v : FileView}

/-! ## The libraries of a directory -/

/-- The names that a directory shows, in their order. -/
def sortedNames (v : FileView) (dir : Path) : List String :=
  (v.names dir).mergeSort fun a b ↦ decide (a ≤ b)

theorem sortedNames_perm (v : FileView) (dir : Path) : (v.sortedNames dir).Perm (v.names dir) :=
  List.mergeSort_perm _ _

theorem pairwise_sortedNames (v : FileView) (dir : Path) :
    (v.sortedNames dir).Pairwise (· ≤ ·) := by
  have htrans (a b c : String) (hab : decide (a ≤ b) = true) (hbc : decide (b ≤ c) = true) :
      decide (a ≤ c) = true :=
    decide_eq_true (String.le_trans (of_decide_eq_true hab) (of_decide_eq_true hbc))
  have htotal (a b : String) : (decide (a ≤ b) || decide (b ≤ a)) = true := by
    simpa using String.le_total a b
  exact (List.pairwise_mergeSort htrans htotal (v.names dir)).imp of_decide_eq_true

/-- There is one way only to put names in order. -/
theorem eq_of_perm_of_pairwise {names names' : List String} (hperm : names.Perm names')
    (h : names.Pairwise (· ≤ ·)) (h' : names'.Pairwise (· ≤ ·)) : names = names' :=
  hperm.eq_of_pairwise (fun _ _ _ _ hab hba ↦ String.le_antisymm hab hba) h h'

theorem offers_iff {dir : Path} {libraries : List LoadedLibrary} :
    v.Offers (some dir) libraries ↔
      libraries = (v.sortedNames dir).filterMap (v.libraryAt? dir) := by
  constructor
  · rintro ⟨names, hperm, hsorted, rfl⟩
    rw [eq_of_perm_of_pairwise (hperm.trans (v.sortedNames_perm dir).symm) hsorted
      (v.pairwise_sortedNames dir)]
  · rintro rfl
    exact ⟨_, v.sortedNames_perm dir, v.pairwise_sortedNames dir, rfl⟩

theorem exists_offers (v : FileView) (dir? : Option Path) :
    ∃ libraries, v.Offers dir? libraries := by
  cases dir? with
  | none => exact ⟨[], rfl⟩
  | some dir => exact ⟨_, offers_iff.mpr rfl⟩

theorem filterMap_candidates (v : FileView) (dir : Path) (names : List String) :
    ((names.map dir.join |>.filter (·.hasExtension libraryExtension)).filter v.isFile).filterMap
        (fun p ↦ (v.load p).toOption) = names.filterMap (v.libraryAt? dir) := by
  induction names with
  | nil => rfl
  | cons n names ih =>
    rw [List.map_cons, List.filterMap_cons, libraryAt?, ← ih, List.filter_cons]
    cases (dir.join n).hasExtension libraryExtension with
    | false => rfl
    | true =>
      rw [if_pos rfl, List.filter_cons, Bool.true_and]
      cases v.isFile (dir.join n) with
      | false => rfl
      | true => rfl

/-- Names without a library do not matter, wherever they stand. -/
theorem filterMap_sortedNames {v v' : FileView} {dir : Path} {more : List String}
    (hnames : (v'.names dir).Perm (more ++ v.names dir))
    (hmore : ∀ n ∈ more, v'.libraryAt? dir n = none)
    (hold : ∀ n ∈ v.names dir, v'.libraryAt? dir n = v.libraryAt? dir n) :
    (v'.sortedNames dir).filterMap (v'.libraryAt? dir) =
      (v.sortedNames dir).filterMap (v.libraryAt? dir) := by
  -- What is left in either list when only names with a library are kept.
  have hkept (names : List String) :
      (names.filter fun n ↦ (v'.libraryAt? dir n).isSome).filterMap (v'.libraryAt? dir) =
        names.filterMap (v'.libraryAt? dir) := by
    rw [List.filterMap_filter]
    refine List.filterMap_congr fun n _ ↦ ?_
    cases v'.libraryAt? dir n <;> rfl
  have hnone : (more.filter fun n ↦ (v'.libraryAt? dir n).isSome) = [] := by
    rw [List.filter_eq_nil_iff]
    intro n hn
    rw [hmore n hn]
    exact Bool.false_ne_true
  have hsame : ((v'.sortedNames dir).filter fun n ↦ (v'.libraryAt? dir n).isSome) =
      (v.sortedNames dir).filter fun n ↦ (v'.libraryAt? dir n).isSome := by
    refine eq_of_perm_of_pairwise ?_ ((v'.pairwise_sortedNames dir).filter _)
      ((v.pairwise_sortedNames dir).filter _)
    have hperm := ((v'.sortedNames_perm dir).trans hnames).filter fun n ↦
      (v'.libraryAt? dir n).isSome
    rw [List.filter_append, hnone, List.nil_append] at hperm
    exact hperm.trans ((v.sortedNames_perm dir).filter _).symm
  rw [← hkept, hsame, hkept]
  exact List.filterMap_congr fun n hn ↦ hold n ((v.sortedNames_perm dir).mem_iff.mp hn)

theorem path_of_load {p : Path} {library : LoadedLibrary} (h : v.load p = .ok library) :
    library.path = p := by
  rw [load] at h
  split at h
  · cases h
  · rw [LoadedLibrary.ofBytes] at h
    split at h
    · cases h
    · cases h
      rfl

/-- Files all load, or there is a first one that does not. -/
theorem load_all_or_first (v : FileView) (ps : List Path) :
    (∃ libraries : List LoadedLibrary, ps.map v.load = libraries.map .ok) ∨
      ∃ before p after cause, ∃ loaded : List LoadedLibrary, ps = before ++ p :: after ∧
        before.map v.load = loaded.map .ok ∧ v.load p = .error cause := by
  induction ps with
  | nil => exact .inl ⟨[], rfl⟩
  | cons p ps ih =>
    cases hp : v.load p with
    | error cause => exact .inr ⟨[], p, ps, cause, [], rfl, rfl, hp⟩
    | ok library =>
      obtain ⟨libraries, hall⟩ | ⟨before, q, after, cause, loaded, rfl, hbefore, hq⟩ := ih
      · exact .inl ⟨library :: libraries, by rw [List.map_cons, List.map_cons, hp, hall]⟩
      · refine .inr ⟨p :: before, q, after, cause, library :: loaded, rfl, ?_, hq⟩
        rw [List.map_cons, List.map_cons, hp, hbefore]

end FileView

/-- Discovery fails or finds something, whatever the files look like. -/
theorem DiscoveryConfig.fails_or_finds (config : DiscoveryConfig) (v : FileView) :
    (∃ e, config.Fails v e) ∨ ∃ d, config.Finds v d := by
  cases hruntime : v.load config.runtime with
  | error cause => exact .inl ⟨_, .runtime hruntime⟩
  | ok runtime =>
    obtain ⟨references, hall⟩ | ⟨before, p, after, cause, loaded, hsplit, hbefore, hp⟩ :=
      v.load_all_or_first config.references
    · cases hoperators : Bindings.resolve runtime.library with
      | error e => exact .inl ⟨_, .operators hruntime hall hoperators⟩
      | ok operators =>
        obtain ⟨bundled, hbundled⟩ := v.exists_offers config.bundled?
        obtain ⟨user, huser⟩ := v.exists_offers config.user?
        exact .inr ⟨_, .mk hruntime hall hbundled huser hoperators⟩
    · exact .inl ⟨_, .reference hruntime hsplit hbefore hp⟩

/-! ## Looking -/

section ViewedFiles

variable {σ : Type} [ViewedFiles σ]

open ViewedFiles

theorem loadLibrary_apply (p : Path) (s : σ) :
    (loadLibrary p : StateM σ _) s = ((view s).load p, s) := by
  rw [loadLibrary, stateM_bind_apply, read_apply, FileView.load]
  cases (view s).read p with
  | error e => rfl
  | ok bytes => rfl

theorem filterAuxM_isFile_apply (ps kept : List Path) (s : σ) :
    (ps.filterAuxM Files.isFile kept : StateM σ _) s =
      ((ps.filter (view s).isFile).reverse ++ kept, s) := by
  induction ps generalizing kept with
  | nil => rfl
  | cons p ps ih =>
    rw [List.filterAuxM, stateM_bind_apply, isFile_apply, List.filter_cons]
    cases hp : (view s).isFile p with
    | false => exact ih kept
    | true => simpa using ih (p :: kept)

theorem filterM_isFile_apply (ps : List Path) (s : σ) :
    (ps.filterM Files.isFile : StateM σ _) s = (ps.filter (view s).isFile, s) := by
  rw [List.filterM, stateM_bind_apply, filterAuxM_isFile_apply, List.append_nil, stateM_pure_apply,
    List.reverse_reverse]

theorem loadAvailable_apply (ps : List Path) (s : σ) :
    (loadAvailable ps : StateM σ _) s = (ps.filterMap fun p ↦ ((view s).load p).toOption, s) := by
  induction ps with
  | nil => rfl
  | cons p ps ih =>
    simp only [loadAvailable, stateM_bind_apply, loadLibrary_apply, ih, List.filterMap_cons,
      stateM_pure_apply]
    cases (view s).load p with
    | error e => rfl
    | ok library => rfl

theorem libraryCandidates_apply (dir : Path) (s : σ) :
    (libraryCandidates dir : StateM σ _) s =
      ((((view s).sortedNames dir).map dir.join |>.filter (·.hasExtension libraryExtension)).filter
        (view s).isFile, s) := by
  rw [libraryCandidates, stateM_bind_apply, list_apply, FileView.sortedNames, FileView.names]
  cases (view s).list dir with
  | error e => simp [stateM_pure_apply]
  | ok names => exact filterM_isFile_apply _ s

theorem loadDirectory_apply {dir? : Option Path} {libraries : List LoadedLibrary} {s : σ}
    (h : (view s).Offers dir? libraries) :
    (loadDirectory dir? : StateM σ _) s = (libraries, s) := by
  cases dir? with
  | none =>
    cases h
    rfl
  | some dir =>
    obtain rfl := FileView.offers_iff.mp h
    rw [loadDirectory, stateM_bind_apply, libraryCandidates_apply, loadAvailable_apply,
      FileView.filterMap_candidates]

theorem loadReferences_of_ok {ps : List Path} {libraries : List LoadedLibrary} {s : σ}
    (h : ps.map (view s).load = libraries.map .ok) :
    (loadReferences ps : StateM σ _) s = (.ok libraries, s) := by
  induction ps generalizing libraries with
  | nil =>
    obtain rfl : libraries = [] := by simpa using h.symm
    rfl
  | cons p ps ih =>
    obtain ⟨library, rest, rfl, hp, hps⟩ := List.map_eq_cons_iff.mp h.symm
    rw [loadReferences, stateM_bind_apply, loadLibrary_apply, ← hp]
    simp only [stateM_bind_apply, ih hps.symm]
    rfl

theorem loadReferences_of_error {before after : List Path} {loaded : List LoadedLibrary} {p : Path}
    {cause : LoadFailure} {s : σ} (hbefore : before.map (view s).load = loaded.map .ok)
    (hp : (view s).load p = .error cause) :
    (loadReferences (before ++ p :: after) : StateM σ _) s =
      (.error (.referenceLoad p cause), s) := by
  induction before generalizing loaded with
  | nil =>
    rw [List.nil_append, loadReferences, stateM_bind_apply, loadLibrary_apply, hp]
    rfl
  | cons q before ih =>
    obtain ⟨library, rest, rfl, hq, hrest⟩ := List.map_eq_cons_iff.mp hbefore.symm
    rw [List.cons_append, loadReferences, stateM_bind_apply, loadLibrary_apply, ← hq]
    simp only [stateM_bind_apply, ih hrest.symm]
    rfl

/-! ## Discovering -/

variable {config : DiscoveryConfig} {s : σ}

theorem discover_of_fails {e : DiscoveryError} (h : config.Fails (view s) e) :
    (discover config : StateM σ _) s = (.error e, s) := by
  rw [discover, stateM_bind_apply, loadLibrary_apply]
  cases h with
  | runtime hruntime =>
    rw [hruntime]
    rfl
  | reference hruntime hreferences hbefore hp =>
    simp only [hruntime, stateM_bind_apply, hreferences, loadReferences_of_error hbefore hp]
    rfl
  | operators hruntime hreferences hoperators =>
    obtain ⟨bundled, hbundled⟩ := (view s).exists_offers config.bundled?
    obtain ⟨user, huser⟩ := (view s).exists_offers config.user?
    simp only [hruntime, stateM_bind_apply, loadReferences_of_ok hreferences,
      loadDirectory_apply hbundled, loadDirectory_apply huser, Discovery.of, hoperators]
    rfl

theorem discover_of_finds {d : Discovery} (h : config.Finds (view s) d) :
    (discover config : StateM σ _) s = (.ok d, s) := by
  rw [discover, stateM_bind_apply, loadLibrary_apply]
  cases h with
  | mk hruntime hreferences hbundled huser hoperators =>
    simp only [hruntime, stateM_bind_apply, loadReferences_of_ok hreferences,
      loadDirectory_apply hbundled, loadDirectory_apply huser, Discovery.of, hoperators,
      FileView.path_of_load hruntime, List.append_assoc, List.cons_append]
    rfl

theorem discover_eq_error_iff {e : DiscoveryError} :
    ((discover config : StateM σ _) s).1 = .error e ↔ config.Fails (view s) e := by
  constructor
  · intro h
    obtain ⟨e', he'⟩ | ⟨d, hd⟩ := config.fails_or_finds (view s)
    · rw [discover_of_fails he'] at h
      cases h
      exact he'
    · rw [discover_of_finds hd] at h
      cases h
  · intro h
    rw [discover_of_fails h]

theorem discover_eq_ok_iff {d : Discovery} :
    ((discover config : StateM σ _) s).1 = .ok d ↔ config.Finds (view s) d := by
  constructor
  · intro h
    obtain ⟨e, he⟩ | ⟨d', hd'⟩ := config.fails_or_finds (view s)
    · rw [discover_of_fails he] at h
      cases h
    · rw [discover_of_finds hd'] at h
      cases h
      exact hd'
  · intro h
    rw [discover_of_finds h]

theorem discover_snd (config : DiscoveryConfig) (s : σ) :
    ((discover config : StateM σ _) s).2 = s := by
  obtain ⟨e, he⟩ | ⟨d, hd⟩ := config.fails_or_finds (view s)
  · rw [discover_of_fails he]
  · rw [discover_of_finds hd]

end ViewedFiles

/-! ## Files that look alike -/

/-- Two views show the same where discovery looks. -/
structure DiscoveryConfig.SeesAlike (config : DiscoveryConfig) (v v' : FileView) : Prop where
  load : ∀ p ∈ config.runtime :: config.references, v'.load p = v.load p
  offers : ∀ dir? ∈ [config.bundled?, config.user?], ∀ libraries,
    v.Offers dir? libraries → v'.Offers dir? libraries

namespace DiscoveryConfig.SeesAlike

variable {config : DiscoveryConfig} {v v' : FileView}

theorem map_load (h : config.SeesAlike v v') {ps : List Path}
    (hps : ∀ p ∈ ps, p ∈ config.references) : ps.map v'.load = ps.map v.load :=
  List.map_congr_left fun p hp ↦ h.load p (List.mem_cons_of_mem _ (hps p hp))

theorem fails (h : config.SeesAlike v v') {e : DiscoveryError} (he : config.Fails v e) :
    config.Fails v' e := by
  have hload := h.load config.runtime List.mem_cons_self
  cases he with
  | runtime hruntime => exact .runtime (hload.trans hruntime)
  | @reference runtime before after loaded p cause hruntime hreferences hbefore hp =>
    have hmem : ∀ q ∈ before ++ p :: after, q ∈ config.references := fun q hq ↦ hreferences ▸ hq
    have hp' := h.load p (List.mem_cons_of_mem _ (hmem p (by simp)))
    have hbefore' := h.map_load fun q hq ↦ hmem q (List.mem_append_left _ hq)
    exact .reference (hload.trans hruntime) hreferences (hbefore'.trans hbefore) (hp'.trans hp)
  | operators hruntime hreferences hoperators =>
    exact .operators (hload.trans hruntime) ((h.map_load fun _ hp ↦ hp).trans hreferences)
      hoperators

theorem finds (h : config.SeesAlike v v') {d : Discovery} (hd : config.Finds v d) :
    config.Finds v' d := by
  cases hd with
  | mk hruntime hreferences hbundled huser hoperators =>
    exact .mk ((h.load config.runtime List.mem_cons_self).trans hruntime)
      ((h.map_load fun _ hp ↦ hp).trans hreferences) (h.offers _ (by simp) _ hbundled)
      (h.offers _ (by simp) _ huser) hoperators

theorem discover_eq {σ σ' : Type} [ViewedFiles σ] [ViewedFiles σ'] {s : σ} {s' : σ'}
    (h : config.SeesAlike (ViewedFiles.view s) (ViewedFiles.view s')) :
    ((discover config : StateM σ' _) s').1 = ((discover config : StateM σ _) s).1 := by
  obtain ⟨e, he⟩ | ⟨d, hd⟩ := config.fails_or_finds (ViewedFiles.view s)
  · rw [discover_of_fails he, discover_of_fails (h.fails he)]
  · rw [discover_of_finds hd, discover_of_finds (h.finds hd)]

end DiscoveryConfig.SeesAlike

/-- Two views that differ only in the order in which directories show their names. -/
structure FileView.Reorders (v v' : FileView) : Prop where
  read : v'.read = v.read
  isFile : v'.isFile = v.isFile
  names : ∀ dir, (v'.names dir).Perm (v.names dir)

theorem FileView.Reorders.seesAlike {v v' : FileView} (h : v.Reorders v')
    (config : DiscoveryConfig) : config.SeesAlike v v' := by
  have hload : v'.load = v.load := by
    funext p
    rw [load, load, h.read]
  refine ⟨fun p _ ↦ congrFun hload p, fun dir? _ libraries hoffers ↦ ?_⟩
  cases dir? with
  | none => exact hoffers
  | some dir =>
    obtain ⟨names, hperm, hsorted, rfl⟩ := hoffers
    have hlibrary : v'.libraryAt? dir = v.libraryAt? dir := by
      funext name
      rw [libraryAt?, libraryAt?, hload, h.isFile]
    exact ⟨names, hperm.trans (h.names dir).symm, hsorted, by rw [hlibrary]⟩

/-! ## Additions that are passed over -/

/-- A name is passed over in a directory: it has another extension, is no regular file, or does not
load, whether it cannot be read or is no library. -/
def FileView.PassesOver (v : FileView) (dir : Path) (name : String) : Prop :=
  (dir.join name).hasExtension libraryExtension = false ∨ v.isFile (dir.join name) = false ∨
    ∃ cause, v.load (dir.join name) = .error cause

theorem FileView.PassesOver.libraryAt?_eq_none {v : FileView} {dir : Path} {name : String}
    (h : v.PassesOver dir name) : v.libraryAt? dir name = none := by
  rw [libraryAt?]
  rcases h with hextension | hfile | ⟨cause, hload⟩
  · rw [hextension, Bool.false_and, if_neg Bool.false_ne_true]
  · rw [hfile, Bool.and_false, if_neg Bool.false_ne_true]
  · rw [hload]
    split <;> rfl

namespace DiscoveryConfig

/-- The directories that are searched. -/
def directories (config : DiscoveryConfig) : List Path :=
  config.bundled?.toList ++ config.user?.toList

/-- All paths that are asked for. -/
def paths (config : DiscoveryConfig) : List Path :=
  config.runtime :: config.references ++ config.bundled?.toList ++ config.user?.toList

/-- There is more than before. What is asked for by its path is read as before. Directories show
more names, all of which are passed over, and have under the other names what they had. -/
structure Gains (config : DiscoveryConfig) (v v' : FileView) : Prop where
  asked : ∀ p ∈ config.runtime :: config.references, v'.read p = v.read p
  shown : ∀ dir ∈ config.directories, ∃ more, (v'.names dir).Perm (more ++ v.names dir) ∧
    ∀ n ∈ more, v'.PassesOver dir n
  kept : ∀ dir ∈ config.directories, ∀ n ∈ v.names dir,
    v'.read (dir.join n) = v.read (dir.join n) ∧ v'.isFile (dir.join n) = v.isFile (dir.join n)

theorem mem_directories {config : DiscoveryConfig} {dir : Path}
    (h : some dir ∈ [config.bundled?, config.user?]) : dir ∈ config.directories := by
  simp only [List.mem_cons, List.not_mem_nil, or_false] at h
  rcases h with hbundled | huser
  · exact List.mem_append_left _ (by simp [← hbundled])
  · exact List.mem_append_right _ (by simp [← huser])

theorem Gains.seesAlike {config : DiscoveryConfig} {v v' : FileView} (h : config.Gains v v') :
    config.SeesAlike v v' := by
  constructor
  · intro p hp
    rw [FileView.load, FileView.load, h.asked p hp]
  · intro dir? hdir? libraries hoffers
    cases dir? with
    | none => exact hoffers
    | some dir =>
      have hdir := mem_directories hdir?
      obtain ⟨more, hnames, hmore⟩ := h.shown dir hdir
      rw [FileView.offers_iff] at hoffers ⊢
      rw [hoffers]
      refine (FileView.filterMap_sortedNames hnames ?_ ?_).symm
      · intro n hn
        exact (hmore n hn).libraryAt?_eq_none
      · intro n hn
        obtain ⟨hread, hfile⟩ := h.kept dir hdir n hn
        simp only [FileView.libraryAt?, FileView.load, hread, hfile]

end DiscoveryConfig

/-- A file or directory that a library directory is not searched for: a directory, a file with
another extension, or a file that does not load. -/
def FileTree.Addition.IsPassedOver (a : Addition) : Prop :=
  match a.entry with
  | .directory => True
  | .file contents =>
    (Path.mk a.name).hasExtension libraryExtension = false ∨
      ∃ e, Manifest.ofModule? contents = .error e

namespace FileTree

variable {t : FileTree}

theorem names_of_directory {dir : Path} {d : Location} (hdir : t.locate dir = .ok d)
    (hd : t.get? d = some .directory) : t.view.names dir = t.childNames d := by
  simp only [FileView.names, view, list, hdir, ok_bind, hd]

theorem names_of_ne_directory {dir : Path} (h : t.find dir ≠ .ok .directory) :
    t.view.names dir = [] := by
  rw [Ne, find_eq_ok_iff] at h
  simp only [FileView.names, view, list]
  cases hdir : t.locate dir with
  | error e => rfl
  | ok d =>
    rw [ok_bind]
    cases hd : t.get? d with
    | none => rfl
    | some e =>
      cases e with
      | file contents => rfl
      | directory => exact absurd ⟨d, hdir, hd⟩ h

variable {added : List Addition} {dir : Path} {d : Location} {n : String}

/-- An addition that is passed over is passed over wherever it is met. -/
theorem passesOver_add (hnew : t.AreNew added) (hpassed : ∀ a ∈ added, a.IsPassedOver)
    (hdir : t.locate dir = .ok d) (hd : t.get? d = some .directory) {a : Addition} (ha : a ∈ added)
    (hlocation : a.location = d ++ [n]) : (t.add added).view.PassesOver dir n := by
  obtain ⟨b, hb, hsame, hget⟩ := t.get?_add_of_mem ha
  rw [hlocation] at hsame hget
  obtain ⟨-, hbn⟩ := List.append_inj' hsame rfl
  obtain rfl : b.name = n := List.singleton_inj.mp hbn
  have hname := (hnew b hb).1
  have hkeeps := KeepsDirectories.add hnew
  have hover := hpassed b hb
  have hfound (e : Entry) (he : (t.add added).find (dir.join b.name) = .ok e) : b.entry = e := by
    obtain ⟨l, hl, hentry⟩ := find_eq_ok_iff.mp he
    obtain rfl := locate_join_eq_ok (hkeeps.locate hdir) (hkeeps.directory hd) hname hl
    exact Option.some.inj (hget.symm.trans hentry)
  cases hfind : (t.add added).find (dir.join b.name) with
  | error e => exact .inr (.inl (by simp only [view, isFile, hfind]))
  | ok e =>
    cases e with
    | directory => exact .inr (.inl (by simp only [view, isFile, hfind]))
    | file contents =>
      simp only [Addition.IsPassedOver, hfound _ hfind] at hover
      rcases hover with hextension | ⟨cause, hmodule⟩
      · exact .inl (by rw [hname.hasExtension_join, hextension])
      · refine .inr (.inr ⟨.package cause, ?_⟩)
        simp only [FileView.load, view, read, hfind, ok_bind, LoadedLibrary.ofBytes, hmodule]

/-- A directory shows more names, which are passed over, or it is none as before. -/
theorem names_add (hnew : t.AreNew added) (hpassed : ∀ a ∈ added, a.IsPassedOver)
    (hdir : ∀ e, t.find dir = .error e → (t.add added).find dir = .error e) :
    ∃ more, (t.add added).view.names dir = more ++ t.view.names dir ∧
      ∀ n ∈ more, (t.add added).view.PassesOver dir n := by
  by_cases hfind : t.find dir = .ok .directory
  · obtain ⟨d, hlocate, hd⟩ := find_eq_ok_iff.mp hfind
    have hkeeps := KeepsDirectories.add hnew
    obtain ⟨more, hmore, hadded⟩ := t.childNames_add added d
    refine ⟨more, ?_, ?_⟩
    · rw [names_of_directory (hkeeps.locate hlocate) (hkeeps.directory hd),
        names_of_directory hlocate hd, hmore]
    · intro n hn
      obtain ⟨a, ha, hlocation⟩ := hadded n hn
      exact passesOver_add hnew hpassed hlocate hd ha hlocation
  · have hfind' : (t.add added).find dir ≠ .ok .directory := by
      cases he : t.find dir with
      | error e => simp [hdir e he]
      | ok e =>
        rw [find_add_of_ok hnew he]
        exact he ▸ hfind
    refine ⟨[], ?_, fun n hn ↦ absurd hn List.not_mem_nil⟩
    rw [names_of_ne_directory hfind, names_of_ne_directory hfind', List.nil_append]

/-- Additions that are passed over are a gain, as long as the paths that are asked for and led
nowhere still do. -/
theorem gains_add (hnames : t.HasNames) (hnew : t.AreNew added)
    (hpassed : ∀ a ∈ added, a.IsPassedOver) {config : DiscoveryConfig}
    (hpaths : ∀ p ∈ config.paths, ∀ e, t.find p = .error e → (t.add added).find p = .error e) :
    config.Gains t.view (t.add added).view := by
  have hdirectory (dir : Path) (hdir : dir ∈ config.directories) : dir ∈ config.paths := by
    rw [DiscoveryConfig.paths, List.append_assoc]
    exact List.mem_append_right _ hdir
  constructor
  · intro p hp
    have hmem : p ∈ config.paths := List.mem_append_left _ (List.mem_append_left _ hp)
    have hfind : (t.add added).find p = t.find p := by
      cases hp : t.find p with
      | error e => exact hpaths p hmem e hp
      | ok e => exact find_add_of_ok hnew hp
    simp only [view, read, hfind]
  · intro dir hdir
    obtain ⟨more, hshown, hmore⟩ := names_add hnew hpassed (hpaths dir (hdirectory dir hdir))
    exact ⟨more, .of_eq hshown, hmore⟩
  · intro dir _ n hn
    by_cases hfind : t.find dir = .ok .directory
    · obtain ⟨d, hlocate, hd⟩ := find_eq_ok_iff.mp hfind
      rw [names_of_directory hlocate hd] at hn
      have hsame := find_join_add hnames hnew hlocate hd hn
      exact ⟨by simp only [view, read, hsame], by simp only [view, isFile, hsame]⟩
    · rw [names_of_ne_directory hfind] at hn
      exact absurd hn List.not_mem_nil

end FileTree

/-- **What discovery finds.** It changes no file; it fails as `Fails` says and finds what `Finds`
says otherwise. The order in which directories show their names does not matter. Nor does what is
passed over in library directories, as long as nothing that is asked for by its path is read in
another way: for a tree of files, as long as no path that is asked for led nowhere and leads
somewhere now. -/
theorem discover_exact {σ : Type} [ViewedFiles σ] (config : DiscoveryConfig) :
    (∀ s : σ, ((discover config : StateM σ _) s).2 = s ∧
      (∀ e, ((discover config : StateM σ _) s).1 = .error e ↔
        config.Fails (ViewedFiles.view s) e) ∧
      ∀ d, ((discover config : StateM σ _) s).1 = .ok d ↔
        config.Finds (ViewedFiles.view s) d) ∧
    (∀ s s' : σ, (ViewedFiles.view s).Reorders (ViewedFiles.view s') →
      ((discover config : StateM σ _) s').1 = ((discover config : StateM σ _) s).1) ∧
    (∀ s s' : σ, config.Gains (ViewedFiles.view s) (ViewedFiles.view s') →
      ((discover config : StateM σ _) s').1 = ((discover config : StateM σ _) s).1) ∧
    ∀ (t : FileTree) (added : List FileTree.Addition), t.HasNames → t.AreNew added →
      (∀ a ∈ added, a.IsPassedOver) →
      (∀ p ∈ config.paths, ∀ e, t.find p = .error e → (t.add added).find p = .error e) →
      ((discover config : StateM FileTree _) (t.add added)).1 =
        ((discover config : StateM FileTree _) t).1 := by
  refine ⟨fun s ↦ ⟨discover_snd config s, fun e ↦ discover_eq_error_iff,
    fun d ↦ discover_eq_ok_iff⟩, fun s s' h ↦ (h.seesAlike config).discover_eq,
    fun s s' h ↦ h.seesAlike.discover_eq, ?_⟩
  intro t added hnames hnew hpassed hpaths
  have hgains : config.Gains (ViewedFiles.view t) (ViewedFiles.view (t.add added)) :=
    FileTree.gains_add hnames hnew hpassed hpaths
  exact hgains.seesAlike.discover_eq

/-! ## A stock of libraries -/

/-- Files of which some cannot be read. -/
structure GuardedFiles where
  files : FileTree
  locked : List Location

namespace GuardedFiles

def denied : FileError := .other "Permission denied (os error 13)"

def read (s : GuardedFiles) (p : Path) : Except FileError Bytes := do
  if (← s.files.locate p) ∈ s.locked then .error denied else s.files.read p

def changing (change : FileTree → Except FileError FileTree) :
    StateM GuardedFiles (Except FileError Unit) := fun s ↦
  let (r, files) := FileTree.changing change s.files
  (r, { s with files })

instance : ViewedFiles GuardedFiles where
  read p s := (s.read p, s)
  list p s := (s.files.list p, s)
  isFile p s := (s.files.isFile p, s)
  canonical p s := (s.files.canonical p, s)
  create p := changing (·.create p)
  append p bytes := changing (·.append p bytes)
  sync _ := changing .ok
  rename p q := changing (·.rename p q)
  remove p := changing (·.remove p)
  copy p q s :=
    match s.read p with
    | .error e => (.error e, s)
    | .ok _ => changing (·.copy p q) s
  view s := ⟨s.read, s.files.list, s.files.isFile⟩
  read_apply _ _ := rfl
  list_apply _ _ := rfl
  isFile_apply _ _ := rfl

end GuardedFiles

namespace DiscoveryConfig

/-- A directory, a file with another extension and a file that does not load. -/
def strays : List FileTree.Addition :=
  [⟨["lib"], "nested.wasm", .directory⟩,
    ⟨["lib"], "notes.bin", .file [0, 97, 115, 109, 1, 0, 0, 0]⟩,
    ⟨["lib"], "broken.WASM", .file [0]⟩]

theorem isPassedOver_strays : ∀ a ∈ strays, a.IsPassedOver := by
  simp only [strays, List.forall_mem_cons, List.not_mem_nil, false_implies, implies_true, and_true]
  exact ⟨trivial, .inl (by decide +kernel), .inr ⟨_, rfl⟩⟩

/-- A runtime that has all operations. -/
def support : Manifest where
  types := [.primitive]

/-- A library with a type of one method. -/
def console : Manifest where
  module? := some "host"
  types := [{ name := "Console", isLibraryType := true, methods := [{ name := "Clear" }] }]

/-- A runtime, and a library in a directory that is searched. -/
def stockedFiles : FileTree where
  entries :=
    [(["rt.wasm"], .file support.pack), (["lib"], .directory),
      (["lib", "console.wasm"], .file console.pack)]
  working := []

/-- One of the directories is not there. -/
def stockedConfig : DiscoveryConfig := ⟨⟨"rt.wasm"⟩, [], some ⟨"lib"⟩, some ⟨"extra"⟩⟩

/-- What is there to be found. -/
def stock : List LoadedLibrary :=
  [⟨⟨"rt.wasm"⟩, ⟨"rt", support⟩⟩, ⟨⟨"lib/console.wasm"⟩, ⟨"host", console⟩⟩]

/-- The files with more in them: besides the strays there is a library that cannot be read. -/
def guardedFiles : GuardedFiles where
  files := stockedFiles.add (⟨["lib"], "locked.wasm", .file console.pack⟩ :: strays)
  locked := [["lib", "locked.wasm"]]

theorem ofBytes_support : LoadedLibrary.ofBytes ⟨"rt.wasm"⟩ support.pack =
    .ok ⟨⟨"rt.wasm"⟩, ⟨"rt", support⟩⟩ := by
  have hsize := Manifest.length_packedSection_lt (m := support) (by decide +kernel)
  have hstem : (Path.mk "rt.wasm").stem? = some "rt" := by decide +kernel
  rw [LoadedLibrary.ofBytes, Manifest.ofModule?_of_isProper (by decide) hsize]
  exact congrArg (fun stem : Option String ↦
    Except.ok (⟨⟨"rt.wasm"⟩, ⟨stem.getD "", support⟩⟩ : LoadedLibrary)) hstem

theorem ofBytes_console : LoadedLibrary.ofBytes ⟨"lib/console.wasm"⟩ console.pack =
    .ok ⟨⟨"lib/console.wasm"⟩, ⟨"host", console⟩⟩ := by
  have hsize := Manifest.length_packedSection_lt (m := console) (by decide +kernel)
  rw [LoadedLibrary.ofBytes, Manifest.ofModule?_of_isProper (by decide) hsize]
  rfl

/-- A view of the runtime and the library. -/
structure ShowsStock (v : FileView) : Prop where
  runtime : v.read ⟨"rt.wasm"⟩ = .ok support.pack
  library : v.read ⟨"lib/console.wasm"⟩ = .ok console.pack
  isFile : v.isFile ⟨"lib/console.wasm"⟩ = true
  names : v.names ⟨"lib"⟩ = ["console.wasm"]
  noNames : v.names ⟨"extra"⟩ = []

namespace ShowsStock

variable {v : FileView}

theorem load (h : ShowsStock v) :
    v.load ⟨"rt.wasm"⟩ = .ok ⟨⟨"rt.wasm"⟩, ⟨"rt", support⟩⟩ := by
  rw [FileView.load, h.runtime]
  exact ofBytes_support

theorem offers (h : ShowsStock v) :
    v.Offers (some ⟨"lib"⟩) [⟨⟨"lib/console.wasm"⟩, ⟨"host", console⟩⟩] := by
  have hjoin : Path.join ⟨"lib"⟩ "console.wasm" = ⟨"lib/console.wasm"⟩ := by decide +kernel
  have hextension : (Path.mk "lib/console.wasm").hasExtension libraryExtension = true := by
    decide +kernel
  have hlibrary : v.libraryAt? ⟨"lib"⟩ "console.wasm" =
      some ⟨⟨"lib/console.wasm"⟩, ⟨"host", console⟩⟩ := by
    rw [FileView.libraryAt?, hjoin, hextension, h.isFile, Bool.and_self, if_pos rfl,
      FileView.load, h.library]
    exact congrArg Except.toOption ofBytes_console
  refine ⟨["console.wasm"], .of_eq h.names.symm, List.pairwise_singleton _ _, ?_⟩
  rw [List.filterMap_cons, hlibrary]
  rfl

theorem finds (h : ShowsStock v) {operators : Bindings}
    (hoperators : Bindings.resolve ⟨"rt", support⟩ = .ok operators) :
    stockedConfig.Finds v
      { host := ⟨.scan (stock.map (·.library)), operators⟩
        runtime := ⟨"rt.wasm"⟩
        references := []
        libraryFiles := [⟨"lib/console.wasm"⟩] } := by
  have huser : v.Offers (some ⟨"extra"⟩) [] := ⟨[], .of_eq h.noNames.symm, .nil, rfl⟩
  exact @Finds.mk stockedConfig v _ [] _ [] _ h.load rfl h.offers huser hoperators

end ShowsStock

theorem showsStock_stockedFiles : ShowsStock (ViewedFiles.view stockedFiles) :=
  ⟨rfl, rfl, rfl, rfl, rfl⟩

theorem showsStock_unguarded :
    ShowsStock (ViewedFiles.view (⟨stockedFiles, []⟩ : GuardedFiles)) :=
  ⟨rfl, rfl, rfl, rfl, rfl⟩

/-- The one path that leads nowhere leads nowhere among the strays. -/
theorem find_add_strays {p : Path} (hp : p ∈ stockedConfig.paths) {e : FileError}
    (he : stockedFiles.find p = .error e) : (stockedFiles.add strays).find p = .error e := by
  simp only [paths, stockedConfig, List.mem_append, List.mem_cons, List.not_mem_nil, or_false,
    Option.toList_some] at hp
  have hok (q : Path) (hq : (stockedFiles.find q).isOk = true) : p ≠ q := by
    rintro rfl
    rw [he] at hq
    cases hq
  rcases hp with (rfl | rfl) | rfl
  · exact absurd rfl (hok ⟨"rt.wasm"⟩ rfl)
  · exact absurd rfl (hok ⟨"lib"⟩ rfl)
  · exact he

theorem gains_guardedFiles :
    stockedConfig.Gains (ViewedFiles.view (⟨stockedFiles, []⟩ : GuardedFiles))
      (ViewedFiles.view guardedFiles) := by
  constructor
  · intro p hp
    obtain rfl := List.mem_singleton.mp hp
    rfl
  · intro dir hdir
    rcases List.mem_cons.mp hdir with rfl | hdir
    · refine ⟨["locked.wasm", "nested.wasm", "notes.bin", "broken.WASM"], .of_eq rfl, ?_⟩
      simp only [List.forall_mem_cons, List.not_mem_nil, false_implies, implies_true, and_true]
      exact ⟨.inr (.inr ⟨.file GuardedFiles.denied, rfl⟩), .inr (.inl rfl),
        .inl (by decide +kernel), .inr (.inr ⟨.package .invalidModule, rfl⟩)⟩
    · obtain rfl := List.mem_singleton.mp hdir
      exact ⟨[], .of_eq rfl, fun n hn ↦ absurd hn List.not_mem_nil⟩
  · intro dir hdir n hn
    rcases List.mem_cons.mp hdir with rfl | hdir
    · obtain rfl := List.mem_singleton.mp hn
      exact ⟨rfl, rfl⟩
    · obtain rfl := List.mem_singleton.mp hdir
      exact absurd hn List.not_mem_nil

theorem discover_exact_strays :
    ∃ d, ((discover stockedConfig : StateM FileTree _) stockedFiles).1 = .ok d ∧
      (d.host.registry.method? "Console" "Clear").isSome ∧
      d.libraryFiles = [⟨"lib/console.wasm"⟩] ∧
      ((discover stockedConfig : StateM FileTree _) (stockedFiles.add strays)).1 = .ok d ∧
      ((discover stockedConfig : StateM GuardedFiles _) guardedFiles).1 = .ok d := by
  obtain ⟨hok, hmethod, hnames, hnew⟩ : (Bindings.resolve ⟨"rt", support⟩).isOk ∧
      ((Registry.scan (stock.map (·.library))).method? "Console" "Clear").isSome ∧
      stockedFiles.HasNames ∧ stockedFiles.AreNew strays := by decide +kernel
  obtain ⟨operators, hoperators⟩ := exists_of_isOk hok
  obtain ⟨hexact, -, -, hadded⟩ := @discover_exact FileTree _ stockedConfig
  obtain ⟨hexact', -, hgains, -⟩ := @discover_exact GuardedFiles _ stockedConfig
  have hfound := ((hexact stockedFiles).2.2 _).mpr (showsStock_stockedFiles.finds hoperators)
  have hseen := ((hexact' ⟨stockedFiles, []⟩).2.2 _).mpr (showsStock_unguarded.finds hoperators)
  refine ⟨_, hfound, hmethod, rfl, ?_, (hgains _ _ gains_guardedFiles).trans hseen⟩
  refine (hadded stockedFiles strays hnames hnew isPassedOver_strays ?_).trans hfound
  intro p hp e he
  exact find_add_strays hp he

/-- A runtime that loads, and a directory that is searched. -/
def searchedFiles : FileTree where
  entries := [(["rt.wasm"], .file [0, 97, 115, 109, 1, 0, 0, 0]), (["lib"], .directory)]
  working := []

theorem hasNames_searchedFiles : searchedFiles.HasNames := by decide

theorem areNew_strays : searchedFiles.AreNew strays := by decide

/-- An addition that is passed over in the directory matters if it is asked for by its path. -/
theorem discover_add_ne_of_asked :
    searchedFiles.HasNames ∧ searchedFiles.AreNew strays ∧ (∀ a ∈ strays, a.IsPassedOver) ∧
      ((discover ⟨⟨"rt.wasm"⟩, [⟨"lib/notes.bin"⟩], some ⟨"lib"⟩, none⟩ : StateM FileTree _)
        (searchedFiles.add strays)).1 ≠
      ((discover ⟨⟨"rt.wasm"⟩, [⟨"lib/notes.bin"⟩], some ⟨"lib"⟩, none⟩ : StateM FileTree _)
        searchedFiles).1 := by
  refine ⟨hasNames_searchedFiles, areNew_strays, isPassedOver_strays, fun h ↦ ?_⟩
  have hsame := congrArg (fun r ↦ match r with
    | .error e => some e
    | .ok _ => none) h
  revert hsame
  decide +kernel

end DiscoveryConfig

end ScriptWasm
