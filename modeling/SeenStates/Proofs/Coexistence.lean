import Mathlib.Logic.Function.Basic
import SeenStates.Proofs.ShardConfinement

/-!
# Sets side by side

Any number of sets that keep their files in one directory, under stems that no two of them share,
get along: whatever is done with them in whatever order, each of them answers, ends up and leaves
its files as if nothing had been done with the others (`Company.alone_of_after`). What carries this
through a run is that the run with all sets and the one with a single set agree in the names of
that set. The path of the directory must not go through a name that one of them writes a checkpoint
in progress to: when a directory stands there, putting the checkpoint in place moves it away under
the feet of all of them (`Company.disturbed_through_pending`).
-/
namespace SeenStates

/-! ## Names of different stems -/

/-- A stem and a file are told from the name that they make. -/
theorem SetFile.name_inj {stem other : String} {f g : SetFile}
    (same : stem ++ "." ++ f.extension = other ++ "." ++ g.extension) : stem = other ∧ f = g := by
  -- Read from their ends, no extension behind a dot is the front of another one.
  have spelled := congrArg (fun s : String => s.toList.reverse) same
  cases f <;> cases g <;> simp [extension] at spelled <;>
    exact ⟨String.toList_inj.1 spelled, rfl⟩

/-- A name is told from the path that joins it to a directory. -/
theorem Path.join_inj {directory name other : String} (isName : Path.IsName name)
    (isName' : Path.IsName other) (same : Path.join directory name = Path.join directory other) :
    name = other := by
  have spelled := congrArg String.toList same
  simp only [join, isName.relative, isName'.relative, Bool.false_or] at spelled
  apply String.toList_inj.1
  split at spelled
  · exact spelled
  · split at spelled
    · simpa using spelled
    · simpa using spelled

/-- A stem and a file are told from the path that they make in a directory. -/
theorem Config.path_inj {c d : Config} (valid : c.validate = .ok ()) (valid' : d.validate = .ok ())
    (directory : c.metadir = d.metadir) {f g : SetFile} (same : c.paths.path f = d.paths.path g) :
    c.name = d.name ∧ f = g := by
  rw [path_eq_join, path_eq_join, directory] at same
  exact SetFile.name_inj
    (Path.join_inj (isName_fileName valid f) (isName_fileName valid' g) same)

/-- The files of some stems in a directory. -/
def Scope.ofStems (directory : String) (here : Location) (stems : String → Prop) : Scope where
  directory := directory
  here := here
  names := fun name => ∃ stem, stems stem ∧ ∃ f : SetFile, name = stem ++ "." ++ f.extension

/-- Names of different stems are different. -/
theorem Scope.apart_ofStems {directory : String} {here : Location} {stems others : String → Prop}
    (apart : ∀ stem, stems stem → ¬ others stem) (name : String)
    (own : (ofStems directory here stems).names name) :
    ¬ (ofStems directory here others).names name := by
  rintro ⟨other, among, g, same⟩
  obtain ⟨stem, own, f, rfl⟩ := own
  obtain ⟨rfl, _⟩ := SetFile.name_inj same
  exact apart stem own among

/-- The path of a directory does not go through a name that a checkpoint in progress of one of some
stems is written to. -/
def IsClear (directory : String) (stems : String → Prop) : Prop :=
  ∀ stem, stems stem → ∀ f : SetFile, f = .pendingCopy ∨ f = .pendingHeader →
    (stem ++ "." ++ f.extension).toList ∉ Path.pieces directory.toList

/-- The files of a stem in a directory with a clear path are in its scope. -/
theorem Scope.has_ofStems {directory : String} {here : Location} {stems : String → Prop}
    (clear : IsClear directory stems) {stem : String} (own : stems stem) :
    (ofStems directory here stems).Has stem :=
  ⟨fun f => ⟨stem, own, f, rfl⟩, clear stem own⟩

/-! ## Contents of files -/

namespace Files

variable {t u : Files} {l : Location}

/-- The contents of the file at a location, if there is one. -/
def contentsAt (t : Files) (l : Location) : Option ByteArray :=
  match t.lookup l with
  | some (.file contents) => some contents
  | _ => none

/-- A file is at a location exactly if it stands there. -/
theorem contentsAt_eq_some {contents : ByteArray} :
    t.contentsAt l = some contents ↔ t.lookup l = some (.file contents) := by
  unfold contentsAt
  cases t.lookup l with
  | none => simp
  | some e => cases e <;> simp

/-- Where the same stands there are the same contents. -/
theorem contentsAt_congr (same : u.lookup l = t.lookup l) : u.contentsAt l = t.contentsAt l := by
  rw [contentsAt, contentsAt, same]

/-- A tree that grows has the files that it had. -/
theorem Grows.contentsAt (grows : Grows t u) (l : Location) :
    u.contentsAt l = t.contentsAt l := by
  refine Option.ext fun contents => ?_
  rw [contentsAt_eq_some, contentsAt_eq_some]
  exact ⟨grows.files l contents, grows.kept l _⟩

end Files

/-! ## What is done with sets -/

variable {w : Width}

/-- What is done with a set. -/
inductive Act (w : Width) where
  /-- It is opened, in the place of the one that was there before. -/
  | open (way : Way) (machine : Machine) (c : Config)
  /-- A call of it is made. -/
  | call (c : Call w)

namespace Act

/-- What it comes to. As long as no set was opened a call does nothing. -/
def perform : Act w → Option (FingerprintSet w) → Host →
    Outcome (Option (FingerprintSet w)) (List Bool)
  | .open way machine c, before, h =>
    match way.open w machine c h with
    | (.error e, h) => .fail e before h
    | (.ok s, h) => .ok [] (some s) h
  | .call _, none, h => .ok [] none h
  | .call c, some s, h => (c.onFingerprintSet s h).onSet some

/-- Whether it keeps to disk-backed sets of some stems in a directory. -/
def KeepsTo (directory : String) (stems : String → Prop) : Act w → Prop
  | .open way _ c =>
    c.kind = .disk ∧ c.metadir = directory ∧ ∀ stem, way.HasStem c stem → stems stem
  | .call _ => True

/-- What is done with a set is confined to the files of its stems. -/
theorem confined {p : Scope} {directory : String} {here : Location} {stems : String → Prop}
    (scope : p = .ofStems directory here stems) (clear : IsClear directory stems)
    (canHold : Files.CanHold directory) {a : Act w} (keeps : a.KeepsTo directory stems)
    {set : Option (FingerprintSet w)} (within : ∀ s, set = some s → s.Within p) :
    ConfinedCall p (fun set => ∀ s, set = some s → s.Within p) (a.perform set) := by
  subst scope
  cases a with
  | «open» way machine c =>
    obtain ⟨kind, metadir, among⟩ := keeps
    have opens := way.confined_open (p := .ofStems directory here stems) metadir kind
      (fun stem has => Scope.has_ofStems clear (among stem has)) canHold w machine
    refine opens.bind (k := fun
      | .error e => fun h => ((.error e, set), h)
      | .ok s => fun h => ((.ok [], some s), h)) (fun r own => ?_) fun h => ?_
    · cases r with
      | error e => exact .still (b := (.error e, set)) within (fun _ => rfl) fun _ => rfl
      | ok s =>
        refine .still (b := (.ok [], some s)) (fun u same => ?_) (fun _ => rfl) fun _ => rfl
        obtain rfl := Option.some.inj same
        exact own s rfl
    · simp only [perform]
      generalize way.open w machine c h = result
      obtain ⟨answer, g⟩ := result
      cases answer with
      | error e => rfl
      | ok s => rfl
  | call c =>
    cases set with
    | none => exact .still (b := (.ok [], none)) within (fun _ => rfl) fun _ => rfl
    | some s =>
      refine ((within s rfl).onFingerprintSet c).onSet fun u own v same => ?_
      obtain rfl := Option.some.inj same
      exact own

end Act

/-- A set, once it is opened, and what it answered so far, the last answer first. -/
structure Holding (w : Width) where
  /-- The set. -/
  set : Option (FingerprintSet w)
  /-- The answers. -/
  answers : List (Except Error (List Bool))

/-- Sets side by side on one host. -/
structure Company {ι : Type} (width : ι → Width) where
  /-- The sets and their answers. -/
  holdings : ∀ i, Holding (width i)
  /-- The host. -/
  host : Host

namespace Company

variable {ι : Type} [DecidableEq ι] {width : ι → Width}

/-- No set is opened yet. -/
def start (h : Host) : Company width := ⟨fun _ => ⟨none, []⟩, h⟩

/-- Something is done with one of the sets. -/
def step (c : Company width) (a : Σ i, Act (width i)) : Company width :=
  let before := c.holdings a.1
  let o := a.2.perform before.set c.host
  ⟨Function.update c.holdings a.1 ⟨o.set, o.answer :: before.answers⟩, o.host⟩

/-- What comes of doing one thing after the other. -/
def after (h : Host) (acts : List (Σ i, Act (width i))) : Company width :=
  acts.foldl step (start h)

/-- What is done with one of the sets. -/
def own (i : ι) (acts : List (Σ i, Act (width i))) : List (Σ i, Act (width i)) :=
  acts.filter fun a => a.1 = i

/-! ## In a directory that is there -/

section Settled

variable {directory : String} {here : Location} {stems : ι → String → Prop} {c d : Company width}
  {i : ι}

/-- Sets side by side in a directory that is there, each with the files of its stems. -/
structure Settled (directory : String) (here : Location) (stems : ι → String → Prop)
    (c : Company width) : Prop where
  /-- The directory is there. -/
  entered : c.host.files.enter directory = .ok here
  /-- No draft lies around. -/
  drafts : c.host.files.drafts = []
  /-- Every set keeps to the files of its stems. -/
  within : ∀ i s, (c.holdings i).set = some s → s.Within (.ofStems directory here (stems i))

/-- What is done with one of the sets edits the files of its stems. -/
theorem Settled.edits (settled : c.Settled directory here stems)
    (clear : ∀ i, IsClear directory (stems i)) (canHold : Files.CanHold directory)
    {a : Σ i, Act (width i)} (keeps : a.2.KeepsTo directory (stems a.1)) :
    Files.Edits (.ofStems directory here (stems a.1)) c.host.files (c.step a).host.files :=
  (a.2.confined rfl (clear a.1) canHold keeps (settled.within a.1)).edits c.host settled.entered

/-- Sets stay in their directory, each with the files of its stems. -/
theorem Settled.step (settled : c.Settled directory here stems)
    (clear : ∀ i, IsClear directory (stems i)) (canHold : Files.CanHold directory)
    {a : Σ i, Act (width i)} (keeps : a.2.KeepsTo directory (stems a.1)) :
    (c.step a).Settled directory here stems := by
  have edits := settled.edits clear canHold keeps
  refine ⟨edits.entered, edits.drafts settled.drafts, fun j s opened => ?_⟩
  by_cases same : j = a.1
  · obtain rfl := same
    simp only [Company.step, Function.update_self] at opened
    exact (a.2.confined rfl (clear a.1) canHold keeps (settled.within a.1)).good c.host s opened
  · simp only [Company.step, Function.update_of_ne same] at opened
    exact settled.within j s opened

/-- They do through all that is done. -/
theorem Settled.foldl (settled : c.Settled directory here stems)
    (clear : ∀ i, IsClear directory (stems i)) (canHold : Files.CanHold directory)
    {acts : List (Σ i, Act (width i))} (keeps : ∀ a ∈ acts, a.2.KeepsTo directory (stems a.1)) :
    (acts.foldl Company.step c).Settled directory here stems := by
  induction acts generalizing c with
  | nil => exact settled
  | cons a rest ih =>
    obtain ⟨keep, further⟩ := List.forall_mem_cons.1 keeps
    exact ih (settled.step clear canHold keep) further

/-- One of the sets is the same, with the same answers and files. -/
structure Alike (directory : String) (here : Location) (stems : ι → String → Prop) (i : ι)
    (c d : Company width) : Prop where
  /-- The set and its answers. -/
  holding : d.holdings i = c.holdings i
  /-- The files of its stems. -/
  files : Files.Agree (.ofStems directory here (stems i)) c.host.files d.host.files

/-- A set stays the same if the same is done with it. -/
theorem Alike.step_own (alike : Alike directory here stems i c d)
    (settled : c.Settled directory here stems) (clear : ∀ i, IsClear directory (stems i))
    (canHold : Files.CanHold directory) {act : Act (width i)}
    (keeps : act.KeepsTo directory (stems i)) :
    Alike directory here stems i (c.step ⟨i, act⟩) (d.step ⟨i, act⟩) := by
  have confined := act.confined rfl (clear i) canHold keeps (settled.within i)
  obtain ⟨result, files⟩ := confined.same alike.files
  simp only [Outcome.parts, Prod.mk.injEq] at result
  refine ⟨?_, ?_⟩
  · simp only [step, Function.update_self, alike.holding, result]
  · simp only [step, alike.holding]
    exact files

/-- A set stays the same if something is done with another one. -/
theorem Alike.step_other (alike : Alike directory here stems i c d)
    (settled : c.Settled directory here stems) (clear : ∀ i, IsClear directory (stems i))
    (canHold : Files.CanHold directory) {a : Σ i, Act (width i)} (other : i ≠ a.1)
    (apart : ∀ stem, stems i stem → ¬ stems a.1 stem)
    (keeps : a.2.KeepsTo directory (stems a.1)) :
    Alike directory here stems i (c.step a) d := by
  have edits := settled.edits clear canHold keeps
  refine ⟨?_, alike.files.of_edits (q := .ofStems directory here (stems a.1)) rfl rfl
    (Scope.apart_ofStems apart) settled.drafts edits⟩
  rw [alike.holding]
  simp only [step, Function.update_of_ne other]

/-- A set is after all that was done with it and others as after what was done with it. -/
theorem Alike.foldl (apart : ∀ i j, i ≠ j → ∀ stem, stems i stem → ¬ stems j stem)
    (clear : ∀ i, IsClear directory (stems i)) (canHold : Files.CanHold directory)
    {acts : List (Σ i, Act (width i))} (keeps : ∀ a ∈ acts, a.2.KeepsTo directory (stems a.1))
    (settled : c.Settled directory here stems) (alike : Alike directory here stems i c d) :
    Alike directory here stems i (acts.foldl step c) ((own i acts).foldl step d) := by
  induction acts generalizing c d with
  | nil => exact alike
  | cons a rest ih =>
    obtain ⟨keep, further⟩ := List.forall_mem_cons.1 keeps
    have settled' := settled.step clear canHold keep
    by_cases same : a.1 = i
    · obtain ⟨j, act⟩ := a
      obtain rfl : j = i := same
      have mine : own j (⟨j, act⟩ :: rest) = ⟨j, act⟩ :: own j rest := by simp [own]
      rw [mine]
      exact ih further settled' (alike.step_own settled clear canHold keep)
    · have others : own i (a :: rest) = own i rest := by simp [own, same]
      rw [others]
      have other : i ≠ a.1 := fun eq => same eq.symm
      exact ih further settled'
        (alike.step_other settled clear canHold other (apart i a.1 other) keep)

end Settled

/-! ## In a directory that is made -/

/-- What comes of doing the same on a host and on the one where a directory was made before: the
same, unless no set was opened yet. -/
inductive Catches (h : Host) (t : Files) : Company width → Company width → Prop where
  /-- It is the same. -/
  | same (c : Company width) : Catches h t c c
  /-- No set was opened. -/
  | waits (holdings : ∀ i, Holding (width i)) (none : ∀ i, (holdings i).set = none) :
    Catches h t ⟨holdings, h⟩ ⟨holdings, h.withFiles t⟩

section Making

variable {directory : String} {stems : ι → String → Prop} {h : Host} {t : Files}
  {c d : Company width}

/-- An act that opens no set and leaves the host alone does so where the directory was made. -/
theorem Catches.still {holdings : ∀ i, Holding (width i)} (none : ∀ i, (holdings i).set = none)
    {a : Σ i, Act (width i)} {answer : Except Error (List Bool)}
    (still : a.2.perform (holdings a.1).set h = ⟨answer, .none, h⟩)
    (still' : a.2.perform (holdings a.1).set (h.withFiles t) = ⟨answer, .none, h.withFiles t⟩) :
    Catches h t (step ⟨holdings, h⟩ a) (step ⟨holdings, h.withFiles t⟩ a) := by
  simp only [step, still, still']
  refine .waits _ fun j => ?_
  by_cases same : j = a.1
  · obtain rfl := same
    rw [Function.update_self]
  · rw [Function.update_of_ne same]
    exact none j

/-- Doing something catches up with doing it where the directory was made, or no set is opened. -/
theorem Catches.step (catches : Catches h t c d)
    (made : h.files.makeDirectories directory = (.ok (), t)) {a : Σ i, Act (width i)}
    (keeps : a.2.KeepsTo directory (stems a.1)) : Catches h t (c.step a) (d.step a) := by
  cases catches with
  | same c => exact .same _
  | waits holdings none =>
    obtain ⟨i, act⟩ := a
    have unopened : (holdings i).set = .none := none i
    cases act with
    | call call => exact .still none (by rw [unopened]; rfl) (by rw [unopened]; rfl)
    | «open» way machine c =>
      obtain ⟨kind, metadir, _⟩ := keeps
      rcases way.opensAlike kind (metadir.symm ▸ made) (width i) machine with
        same | ⟨e, fails, fails'⟩
      · have performs : (Act.open way machine c).perform (holdings i).set h =
            (Act.open way machine c).perform (holdings i).set (h.withFiles t) := by
          simp only [Act.perform, same]
        simp only [Company.step, performs]
        exact .same _
      · have failing (g : Host) (fails : way.open (width i) machine c g = (.error e, g)) :
            (Act.open way machine c).perform (holdings i).set g = ⟨.error e, .none, g⟩ := by
          simp only [Act.perform, fails, unopened]
          rfl
        exact .still none (failing h fails) (failing _ fails')

/-- Doing one thing after the other does too. -/
theorem Catches.foldl (catches : Catches h t c d)
    (made : h.files.makeDirectories directory = (.ok (), t)) {acts : List (Σ i, Act (width i))}
    (keeps : ∀ a ∈ acts, a.2.KeepsTo directory (stems a.1)) :
    Catches h t (acts.foldl Company.step c) (acts.foldl Company.step d) := by
  induction acts generalizing c d with
  | nil => exact catches
  | cons a rest ih =>
    obtain ⟨keep, keeps⟩ := List.forall_mem_cons.1 keeps
    exact ih (catches.step made keep) keeps

omit [DecidableEq ι] in
/-- The sets and their answers are the same, and so are the drafts and the files. -/
theorem Catches.results (catches : Catches h t c d) (grows : Files.Grows h.files t) :
    d.holdings = c.holdings ∧ d.host.files.drafts = c.host.files.drafts ∧
      ∀ l, d.host.files.contentsAt l = c.host.files.contentsAt l := by
  cases catches with
  | same c => exact ⟨rfl, rfl, fun _ => rfl⟩
  | waits holdings none => exact ⟨rfl, grows.drafts, grows.contentsAt⟩

end Making

/-! ## Sets that get along -/

/-- A set and its answers and files are the same in one company as in another one. -/
structure IsUndisturbed (here : Location) (stems : String → Prop) (i : ι) (c d : Company width) :
    Prop where
  /-- The set and its answers are. -/
  holding : c.holdings i = d.holdings i
  /-- The files of its stems are. -/
  files : ∀ stem, stems stem → ∀ f : SetFile,
    c.host.files.contentsAt (here ++ [stem ++ "." ++ f.extension]) =
      d.host.files.contentsAt (here ++ [stem ++ "." ++ f.extension])

section Along

variable {directory : String} {stems : ι → String → Prop} {here : Location} {h : Host} {t : Files}
  {acts : List (Σ i, Act (width i))}

/-- It makes no difference to the answers and files that the directory was made before. -/
theorem results_after (made : h.files.makeDirectories directory = (.ok (), t))
    (keeps : ∀ a ∈ acts, a.2.KeepsTo directory (stems a.1)) :
    (after (h.withFiles t) acts).holdings = (after h acts).holdings ∧
      (after (h.withFiles t) acts).host.files.drafts = (after h acts).host.files.drafts ∧
      ∀ l, (after (h.withFiles t) acts).host.files.contentsAt l =
        (after h acts).host.files.contentsAt l := by
  have grows : Files.Grows h.files t := by
    simpa [made] using Files.grows_makeDirectories h.files directory
  have waits : Catches h t (@start ι width h) (start (h.withFiles t)) :=
    .waits _ fun _ => rfl
  exact (waits.foldl made keeps).results grows

omit [DecidableEq ι] in
/-- Before anything was done in a directory that was made there are no sets in it and no drafts. -/
theorem settled_start (made : h.files.makeDirectories directory = (.ok (), t))
    (entered : t.enter directory = .ok here) (noDrafts : h.files.drafts = []) :
    (start (h.withFiles t) : Company width).Settled directory here stems := by
  have grows : Files.Grows h.files t := by
    simpa [made] using Files.grows_makeDirectories h.files directory
  exact ⟨entered, grows.drafts.trans noDrafts, fun _ _ opened => nomatch opened⟩

/-- After anything was done, a set is as after what was done with it alone. -/
theorem undisturbed_after (apart : ∀ i j, i ≠ j → ∀ stem, stems i stem → ¬ stems j stem)
    (clear : ∀ i, IsClear directory (stems i))
    (made : h.files.makeDirectories directory = (.ok (), t))
    (entered : t.enter directory = .ok here) (noDrafts : h.files.drafts = [])
    (keeps : ∀ a ∈ acts, a.2.KeepsTo directory (stems a.1)) (i : ι) :
    IsUndisturbed here (stems i) i (after h acts) (after h (own i acts)) := by
  have canHold := (Files.enter_of_makeDirectories made).1
  have begun : (start (h.withFiles t) : Company width).Settled directory here stems :=
    settled_start made entered noDrafts
  have itself : Alike directory here stems i (@start ι width (h.withFiles t))
      (start (h.withFiles t)) := ⟨rfl, .refl entered⟩
  have alike := itself.foldl apart clear canHold keeps begun
  have mine : ∀ a ∈ own i acts, a.2.KeepsTo directory (stems a.1) := fun a among =>
    keeps a (List.mem_filter.1 among).1
  obtain ⟨holdings, _, contents⟩ := results_after made keeps
  obtain ⟨holdings', _, contents'⟩ := results_after made mine
  refine ⟨?_, fun stem among f => ?_⟩
  · calc (after h acts).holdings i
        = (after (h.withFiles t) acts).holdings i := (congrFun holdings i).symm
      _ = (after (h.withFiles t) (own i acts)).holdings i := alike.holding.symm
      _ = (after h (own i acts)).holdings i := congrFun holdings' i
  · have same := alike.files.lookup _ (Scope.owns ⟨stem, among, f, rfl⟩)
    rw [← contents, ← contents']
    exact (Files.contentsAt_congr same).symm

/-- After anything was done, what is done next with one of the sets changes no file but those of its
stems. -/
theorem contentsAt_step (clear : ∀ i, IsClear directory (stems i))
    (made : h.files.makeDirectories directory = (.ok (), t))
    (entered : t.enter directory = .ok here) (noDrafts : h.files.drafts = [])
    (keeps : ∀ a ∈ acts, a.2.KeepsTo directory (stems a.1)) {a : Σ i, Act (width i)}
    (keep : a.2.KeepsTo directory (stems a.1)) {l : Location}
    (other : ¬ (Scope.ofStems directory here (stems a.1)).Owns l) :
    ((after h acts).step a).host.files.contentsAt l = (after h acts).host.files.contentsAt l := by
  have canHold := (Files.enter_of_makeDirectories made).1
  have begun : (start (h.withFiles t) : Company width).Settled directory here stems :=
    settled_start made entered noDrafts
  have settled := begun.foldl clear canHold keeps
  have edits := settled.edits clear canHold keep
  obtain ⟨_, _, contents⟩ := results_after made keeps
  have further : ∀ b ∈ acts ++ [a], b.2.KeepsTo directory (stems b.1) := by
    simpa [or_imp, forall_and] using ⟨keeps, keep⟩
  obtain ⟨_, _, contents'⟩ := results_after made further
  have next (h : Host) : after h (acts ++ [a]) = (after h acts).step a := by simp [after]
  rw [← contents, ← next, ← contents', next]
  exact Files.contentsAt_congr (edits.lookup l other)

/-- Sets of different stems get along in a directory that can be made: after anything was done with
them, each has given the answers, is in the state and has the files that it has after what was done
with it alone. No draft is left, what is done next with one of them changes no file but those
of its stems, and no two of all these files are at the same path. -/
theorem alone_of_after (apart : ∀ i j, i ≠ j → ∀ stem, stems i stem → ¬ stems j stem)
    (clear : ∀ i, IsClear directory (stems i))
    (made : (h.files.makeDirectories directory).1 = .ok ()) (noDrafts : h.files.drafts = []) :
    ∃ here, (h.files.makeDirectories directory).2.enter directory = .ok here ∧
      (∀ acts : List (Σ i, Act (width i)), (∀ a ∈ acts, a.2.KeepsTo directory (stems a.1)) →
        (∀ i, IsUndisturbed here (stems i) i (after h acts) (after h (own i acts))) ∧
          (after h acts).host.files.drafts = [] ∧
          ∀ a : Σ i, Act (width i), a.2.KeepsTo directory (stems a.1) →
            ∀ l, ¬ (Scope.ofStems directory here (stems a.1)).Owns l →
              ((after h acts).step a).host.files.contentsAt l =
                (after h acts).host.files.contentsAt l) ∧
      (∀ c : Config, c.validate = .ok () →
        ∀ f, Files.Leads (c.paths.path f) c.metadir (c.fileName f)) ∧
      (∀ c d : Config, c.validate = .ok () → d.validate = .ok () → c.metadir = d.metadir →
        ∀ f g, c.paths.path f = d.paths.path g → c.name = d.name ∧ f = g) ∧
      ∀ (c : Config) (j k : Nat), (c.part j).name = (c.part k).name → j = k := by
  generalize making : h.files.makeDirectories directory = result at made
  obtain ⟨answer, t⟩ := result
  obtain rfl : answer = .ok () := made
  obtain ⟨canHold, here, entered⟩ := Files.enter_of_makeDirectories making
  refine ⟨here, entered, fun acts keeps => ⟨?_, ?_, fun a keep l other => ?_⟩,
    fun c valid f => Config.leads valid f,
    fun c d valid valid' directory f g => Config.path_inj valid valid' directory,
    fun c j k same => ?_⟩
  · exact undisturbed_after apart clear making entered noDrafts keeps
  · obtain ⟨_, drafts, _⟩ := results_after making keeps
    have begun : (start (h.withFiles t) : Company width).Settled directory here stems :=
      settled_start making entered noDrafts
    exact drafts.symm.trans (begun.foldl clear canHold keeps).drafts
  · exact contentsAt_step clear making entered noDrafts keeps keep other
  · exact Config.fileName_part_inj (f := .run) (g := .run) (congrArg (· ++ "." ++ _) same)

end Along

/-! ## Two neighbours -/

/-- Two shards for long fingerprints, beside the set of `sampleConfig`. -/
def neighbourConfig : Config :=
  { sampleConfig with name := "other", width := .bits128, prefixBits := 1 }

/-- One of the neighbours is for short fingerprints and one is for long ones. -/
def neighbourWidth : Bool → Width
  | true => .bits64
  | false => .bits128

/-- The stems of their files. -/
def neighbourStems : Bool → String → Prop
  | true, stem => stem = "states"
  | false, stem => stem = "other_0" ∨ stem = "other_1"

/-- Both are opened in a directory and called then. -/
def neighbourActs (metadir : String) (calls : List (Σ i, Call (neighbourWidth i))) :
    List (Σ i, Act (neighbourWidth i)) :=
  [⟨true, .open .whole sampleMachine { sampleConfig with metadir }⟩,
    ⟨false, .open .configured sampleMachine { neighbourConfig with metadir }⟩] ++
    calls.map fun c => ⟨c.1, .call c.2⟩

/-- Each of them keeps to its stems. -/
theorem keepsTo_neighbourActs (metadir : String) (calls : List (Σ i, Call (neighbourWidth i))) :
    ∀ a ∈ neighbourActs metadir calls, a.2.KeepsTo metadir (neighbourStems a.1) := by
  have shards : ∀ k < Nat.pow 2 1, neighbourStems false (neighbourConfig.part k).name := by
    intro k within
    rcases Nat.lt_succ_iff_lt_or_eq.1 within with first | rfl
    · obtain rfl : k = 0 := by omega
      exact .inl (by decide)
    · exact .inr (by decide)
  simp only [neighbourActs, List.cons_append, List.nil_append, List.forall_mem_cons]
  refine ⟨⟨rfl, rfl, fun stem own => own⟩, ⟨rfl, rfl, fun stem own => ?_⟩, fun a among => ?_⟩
  · have cut : Way.configured.cuts { neighbourConfig with metadir } = true := rfl
    rw [Way.HasStem, if_pos cut] at own
    obtain ⟨k, within, rfl⟩ := own
    exact shards k within
  · obtain ⟨c, _, rfl⟩ := List.mem_map.1 among
    trivial

/-- Their stems are different. -/
theorem apart_neighbourStems (i j : Bool) (differ : i ≠ j) (stem : String)
    (own : neighbourStems i stem) : ¬ neighbourStems j stem := by
  cases i with
  | true =>
    cases j with
    | true => contradiction
    | false =>
      obtain rfl := own
      simp [neighbourStems]
  | false =>
    cases j with
    | false => contradiction
    | true => rcases own with rfl | rfl <;> simp [neighbourStems]

/-- While a checkpoint of the one is in progress the other one is closed and deletes its runs. -/
def neighbourCalls : List (Σ i, Call (neighbourWidth i)) :=
  [⟨true, .put (.ofNat .bits64 1)⟩, ⟨false, .put (.ofNat .bits128 1)⟩, ⟨true, .beginCheckpoint⟩,
    ⟨false, .close true⟩, ⟨true, .commitCheckpoint⟩]

/-- No answer of theirs is an error, and what each of them answers is the same as alone. -/
theorem alone_of_after_neighbours :
    let acts := neighbourActs "m" neighbourCalls
    (∀ i, ((after .empty acts).holdings i).answers.all Except.isOk) ∧
      ∃ here, (Host.empty.files.makeDirectories "m").2.enter "m" = .ok here ∧
        ∀ i, IsUndisturbed here (neighbourStems i) i (after .empty acts)
          (after .empty (own i acts)) := by
  intro acts
  have clear : ∀ i, IsClear "m" (neighbourStems i) := by
    intro i stem own f pending
    cases i with
    | true =>
      obtain rfl : stem = "states" := own
      rcases pending with rfl | rfl <;> decide
    | false => rcases own with rfl | rfl <;> rcases pending with rfl | rfl <;> decide
  have answers : ∀ i, ((after .empty acts).holdings i).answers.all Except.isOk := by
    decide +kernel
  obtain ⟨here, entered, along, _⟩ := @alone_of_after Bool _ neighbourWidth "m" neighbourStems
    .empty apart_neighbourStems clear (by decide +kernel) rfl
  exact ⟨answers, here, entered, (along acts (keepsTo_neighbourActs _ _)).1⟩

/-! ## A path through a pending name -/

/-- The name that the one writes the header of a checkpoint in progress to, and back from there. -/
def crossedDirectory : String := "m/states.fp.chkpt.json.tmp/.."

/-- A checkpoint of the one is begun and put in place before the other one is flushed. -/
def crossedCalls : List (Σ i, Call (neighbourWidth i)) :=
  [⟨false, .put (.ofNat .bits128 1)⟩, ⟨true, .beginCheckpoint⟩, ⟨true, .commitCheckpoint⟩,
    ⟨false, .flush⟩]

/-- Sets of different stems do not always get along: in the path to their directory the pending
header of the first one is a directory, which is moved away with the checkpoint, and then the second
one finds no file any more. -/
theorem disturbed_through_pending :
    ¬ ∀ (directory : String) (stems : Bool → String → Prop)
        (acts : List (Σ i, Act (neighbourWidth i))),
      (∀ i j, i ≠ j → ∀ stem, stems i stem → ¬ stems j stem) →
      (Host.empty.files.makeDirectories directory).1 = .ok () →
      (∀ a ∈ acts, a.2.KeepsTo directory (stems a.1)) →
      ∀ i, ((after .empty acts).holdings i).answers =
        ((after .empty (own i acts)).holdings i).answers := by
  intro along
  let acts := neighbourActs crossedDirectory crossedCalls
  have same := along crossedDirectory neighbourStems acts apart_neighbourStems
    (by decide +kernel) (keepsTo_neighbourActs _ _) false
  have differ : ((after .empty acts).holdings false).answers.map Except.isOk ≠
      ((after .empty (own false acts)).holdings false).answers.map Except.isOk := by
    decide +kernel
  exact differ (congrArg _ same)

end Company

end SeenStates
