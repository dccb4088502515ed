import SeenStates.Checkpoint
import SeenStates.Proofs.CheckpointText
import SeenStates.Proofs.FileChanges
import SeenStates.Proofs.RunFiles

/-!
# Files of checkpoints

The files of a set have different names in one directory, so writing a checkpoint aside, putting it
in place and going back to it each change their own files only. A copy and a header that belong
together (`IsCheckpoint`) are what a checkpoint of a run comes to, and what it is restored from.
-/
namespace SeenStates

variable {w : Width}

/-! ## Names -/

/-- A file of a set. -/
inductive SetFile where
  /-- The run. -/
  | run
  /-- The copy of the run in the committed checkpoint. -/
  | copy
  /-- The header of the committed checkpoint. -/
  | header
  /-- The copy of the run in a checkpoint in progress. -/
  | pendingCopy
  /-- The header of a checkpoint in progress. -/
  | pendingHeader
deriving DecidableEq

/-- What its name has behind the stem. -/
def SetFile.extension : SetFile → String
  | run => "fp"
  | copy => "fp.chkpt"
  | header => "fp.chkpt.json"
  | pendingCopy => "fp.chkpt.tmp"
  | pendingHeader => "fp.chkpt.json.tmp"

/-- The files of checkpoints. -/
def checkpointFiles : List SetFile := [.copy, .header, .pendingCopy, .pendingHeader]

/-- Its path. -/
def SetPaths.path (p : SetPaths) : SetFile → String
  | .run => p.run
  | .copy => p.copy
  | .header => p.header
  | .pendingCopy => p.pendingCopy
  | .pendingHeader => p.pendingHeader

namespace Config

/-- The name of a file of the set. -/
def fileName (c : Config) (f : SetFile) : String := c.name ++ "." ++ f.extension

/-- The path of a file of the set joins its directory and its name. -/
theorem path_eq_join (c : Config) (f : SetFile) :
    c.paths.path f = Path.join c.metadir (c.fileName f) := by
  cases f <;> rfl

/-- A file of the set has a proper name. -/
theorem isName_fileName {c : Config} (valid : c.validate = .ok ()) (f : SetFile) :
    Path.IsName (c.fileName f) := by
  have stem := (usable_of_validate valid).name
  simp only [isStem, Bool.and_eq_true, Bool.not_eq_true', List.any_eq_false, Bool.or_eq_true,
    decide_eq_true_eq, not_or] at stem
  have spelled : (c.fileName f).toList = c.name.toList ++ '.' :: f.extension.toList := by
    simp [fileName]
  have plain : '/' ∉ f.extension.toList := by cases f <;> decide
  have long : 3 ≤ (c.fileName f).toList.length := by
    have named : c.name.toList ≠ [] := by
      intro nothing
      have empty : c.name.isEmpty := String.isEmpty_iff.2 (String.toList_eq_nil_iff.1 nothing)
      rw [stem.1] at empty
      contradiction
    have first := List.length_pos_iff.2 named
    have last : 0 < f.extension.toList.length := by cases f <;> decide
    rw [spelled, List.length_append, List.length_cons]
    omega
  constructor
  case plain =>
    rw [spelled, List.mem_append, List.mem_cons]
    rintro (own | dot | other)
    · exact (stem.2 _ own).1 rfl
    · contradiction
    · exact plain other
  case further =>
    simp only [Path.isIdle, Bool.or_eq_false_iff, decide_eq_false_iff_not]
    constructor <;> intro short <;> simp [short] at long
  case down =>
    simp only [Path.isBack, decide_eq_false_iff_not]
    intro short
    simp [short] at long

/-- Different files of the set have different names. -/
theorem fileName_inj {c : Config} {f g : SetFile} (same : c.fileName f = c.fileName g) : f = g := by
  have spelled := congrArg String.toList same
  simp only [fileName, String.toList_append, List.append_cancel_left_eq] at spelled
  have extensions : f.extension = g.extension := String.toList_inj.1 spelled
  revert extensions
  cases f <;> cases g <;> decide

/-- The path of a file of the set leads to its name in the set's directory. -/
theorem leads {c : Config} (valid : c.validate = .ok ()) (f : SetFile) :
    Files.Leads (c.paths.path f) c.metadir (c.fileName f) :=
  c.path_eq_join f ▸ Files.leads_join (isName_fileName valid f) c.metadir

/-- A file that is not among some has not the name of one of them. -/
theorem fileName_not_mem {c : Config} {f : SetFile} (fs : List SetFile) (other : f ∉ fs) :
    c.fileName f ∉ fs.map c.fileName := by
  rintro member
  obtain ⟨g, among, same⟩ := List.mem_map.1 member
  exact other (fileName_inj same ▸ among)

/-- From one tree to another nothing changes in the set's directory but some of its files. -/
abbrev Alters (c : Config) (fs : List SetFile) (t u : Files) : Prop :=
  Files.Alters c.metadir (fs.map c.fileName) t u

/-- From one tree to another some files of the set change, and every directory and the room
stay. -/
abbrev Keeps (c : Config) (fs : List SetFile) (t u : Files) : Prop :=
  Files.Keeps c.metadir (fs.map c.fileName) t u

/-- A file of the set is still there where other files of the set change. -/
theorem find_of_keeps {c : Config} (valid : c.validate = .ok ()) {t u : Files} {fs : List SetFile}
    (keeps : c.Keeps fs t u) {f : SetFile} (other : f ∉ fs) {contents : ByteArray}
    (found : t.find (c.paths.path f) = .ok (.file contents)) :
    u.find (c.paths.path f) = .ok (.file contents) := by
  obtain ⟨l, located⟩ := Files.locate_of_find found
  exact Files.find_of_locate (keeps.locate (leads valid f) (fileName_not_mem fs other) located)

end Config

/-! ## Checkpoints of entries -/

/-- The header of a checkpoint of a set whose run has the given entries. -/
def CheckpointHeader.ofEntries (family : Family) (entries : Array (Fingerprint w)) :
    CheckpointHeader w :=
  ofRun (.ofEntries "" defaultBlockEntries entries) family

/-- Its index is the sparse index of the entries. -/
theorem CheckpointHeader.index_ofEntries (family : Family) (entries : Array (Fingerprint w)) :
    (CheckpointHeader.ofEntries family entries).index.toArray =
      blockMaxima defaultBlockEntries entries := by
  simp [CheckpointHeader.ofEntries, CheckpointHeader.ofRun, Run.ofEntries]

/-- The header of a checkpoint of entries that can be stored is readable. -/
theorem CheckpointHeader.readable_ofEntries {entries : Array (Fingerprint w)}
    (storable : Storable defaultBlockEntries entries) (family : Family) :
    (ofEntries family entries).Readable family := by
  refine ⟨rfl, rfl, rfl, ?_, storable.blocks⟩
  have fits : entries.size ≤ entries.size * w.bytes := Nat.le_mul_of_pos_right _ w.bytes_pos
  have length := storable.length
  have limit : largestFile < countLimit := by decide
  have count : (ofEntries family entries).count = entries.size := rfl
  unfold RunWriter.bytesOf at length
  omega

/-- A copy and a header that are those of a checkpoint of a run with the given entries. -/
structure IsCheckpoint (family : Family) (entries : Array (Fingerprint w))
    (copy header : ByteArray) : Prop where
  /-- The entries ascend. -/
  ascending : Ascending entries.toList
  /-- They can be stored. -/
  storable : Storable defaultBlockEntries entries
  /-- The copy is a run of them. -/
  copy : IsRun w copy ⟨w.bytes, entries.size, defaultBlockEntries⟩ entries
  /-- The header is theirs. -/
  header : header = (CheckpointHeader.ofEntries family entries).text.toUTF8

/-- The files at two paths, if both are there, are a checkpoint of some run of some set. -/
def Files.Genuine (t : Files) (copyPath headerPath : String) : Prop :=
  ∀ copy header, t.find copyPath = .ok (.file copy) → t.find headerPath = .ok (.file header) →
    ∃ (w : Width) (family : Family) (entries : Array (Fingerprint w)),
      IsCheckpoint family entries copy header

/-- The files at two paths. -/
structure Files.Pair (t : Files) (copyPath headerPath : String) (copy header : ByteArray) :
    Prop where
  /-- The first path leads to the copy. -/
  copied : t.find copyPath = .ok (.file copy)
  /-- The second path leads to the header. -/
  written : t.find headerPath = .ok (.file header)

/-- Two files are a checkpoint of one run of one width and hash family. -/
theorem IsCheckpoint.unique {v : Width} {own family : Family} {entries : Array (Fingerprint v)}
    {others : Array (Fingerprint w)} {copy header : ByteArray}
    (first : IsCheckpoint own entries copy header)
    (second : IsCheckpoint family others copy header) :
    v = w ∧ own = family ∧ entries ≍ others := by
  have bytes := first.header.symm.trans second.header
  have text : (CheckpointHeader.ofEntries own entries).text =
      (CheckpointHeader.ofEntries family others).text := by
    have decoded := congrArg String.fromUTF8? bytes
    rw [fromUTF8?_toUTF8, fromUTF8?_toUTF8] at decoded
    exact Option.some.inj decoded
  have read := CheckpointHeader.read_text
    (CheckpointHeader.readable_ofEntries second.storable family)
  rw [← text] at read
  obtain ⟨rfl, rfl, _⟩ := CheckpointHeader.eq_of_read_text
    (CheckpointHeader.readable_ofEntries first.storable own) read
  have same := Except.ok.inj (first.copy.symm.trans second.copy)
  exact ⟨rfl, rfl, heq_of_eq (Prod.mk.inj same).2⟩

/-- A text that was written is read. -/
theorem Files.readText_of_find {t : Files} {path s : String}
    (found : t.find path = .ok (.file s.toUTF8)) : t.readText path = .ok s := by
  simp only [readText, read, found, fromUTF8?_toUTF8]

/-- A text that is read is spelled by the file. -/
theorem Files.fromUTF8?_of_readText {t : Files} {path s : String} {contents : ByteArray}
    (found : t.find path = .ok (.file contents)) (text : t.readText path = .ok s) :
    String.fromUTF8? contents = some s := by
  rw [readText, read, found] at text
  simp only at text
  split at text
  · next spelled => exact Except.ok.inj text ▸ spelled
  · contradiction

/-! ## Writing a checkpoint aside -/

namespace SetPaths

/-- Writing a checkpoint aside changes its own two files only. -/
theorem keeps_begin {c : Config} (valid : c.validate = .ok ()) (r : Run w) (family : Family)
    (t : Files) : c.Keeps [.pendingCopy, .pendingHeader] t (c.paths.begin r family t).2 := by
  have copied : c.Keeps [.pendingCopy, .pendingHeader] t (t.copy r.path c.paths.pendingCopy).2 :=
    (Files.keeps_copy (Config.leads valid .pendingCopy) t r.path).mono (by simp)
  unfold SetPaths.begin
  split
  · next fault after copy =>
    rw [copy] at copied
    exact copied
  · next after copy =>
    rw [copy] at copied
    have written : c.Keeps [.pendingCopy, .pendingHeader] after
        (after.write c.paths.pendingHeader (CheckpointHeader.ofRun r family).text.toUTF8).2 :=
      (Files.keeps_write (Config.leads valid .pendingHeader) after _).mono (by simp)
    split
    · next write =>
      rw [write] at written
      exact copied.trans written
    · next write =>
      rw [write] at written
      exact copied.trans written

/-- A checkpoint that was written aside consists of the file of the run and the run's header. -/
theorem begin_eq_ok {c : Config} (valid : c.validate = .ok ()) {r : Run w}
    (own : r.path = c.paths.run) {family : Family} {t u : Files}
    (begun : c.paths.begin r family t = (.ok (), u)) :
    ∃ contents, t.find c.paths.run = .ok (.file contents) ∧
      excess? t.room contents.size = none ∧
      (∃ l, u.locate c.paths.pendingCopy = .ok (l, .file contents)) ∧
      ∃ l, u.locate c.paths.pendingHeader =
        .ok (l, .file (CheckpointHeader.ofRun r family).text.toUTF8) := by
  unfold SetPaths.begin at begun
  split at begun
  · simp at begun
  · next after copied =>
    split at begun
    · simp at begun
    · next written =>
      obtain rfl := (Prod.mk.inj begun).2
      have differ : c.fileName .pendingCopy ≠ c.fileName .run := fun same =>
        absurd (Config.fileName_inj same) (by decide)
      obtain ⟨l, contents, found, copy, room⟩ :=
        Files.locate_copy (own ▸ Config.leads valid .run) (Config.leads valid .pendingCopy) differ
          copied
      have kept := Files.keeps_write (Config.leads valid .pendingHeader) after
        (CheckpointHeader.ofRun r family).text.toUTF8
      have written' : after.write (c.paths.path .pendingHeader)
          (CheckpointHeader.ofRun r family).text.toUTF8 = (.ok (), _) := written
      rw [written'] at kept
      have other : c.fileName .pendingCopy ∉ [c.fileName .pendingHeader] :=
        Config.fileName_not_mem [.pendingHeader] (by decide)
      exact ⟨contents, own ▸ found, room,
        ⟨l, kept.locate (Config.leads valid .pendingCopy) other copy⟩, Files.locate_write written⟩

/-- If it cannot be written aside, files are at fault. -/
theorem begin_eq_error {p : SetPaths} {r : Run w} {family : Family} {t u : Files} {e : Error}
    (failed : p.begin r family t = (.error e, u)) : ∃ path fault, e = .file path fault := by
  unfold SetPaths.begin at failed
  split at failed
  · exact ⟨_, _, (Except.error.inj (Prod.mk.inj failed).1).symm⟩
  · split at failed
    · exact ⟨_, _, (Except.error.inj (Prod.mk.inj failed).1).symm⟩
    · simp at failed

/-- What writing a checkpoint aside leaves in the place of its copy, also when it fails, is what was
there before or the front of the file of the run. -/
theorem find_of_begin {c : Config} (valid : c.validate = .ok ()) {r : Run w}
    (own : r.path = c.paths.run) {family : Family} {t : Files} {e : Entry}
    (found : (c.paths.begin r family t).2.find c.paths.pendingCopy = .ok e) :
    t.find c.paths.pendingCopy = .ok e ∨
      ∃ contents n, t.find c.paths.run = .ok (.file contents) ∧
        e = .file (contents.extract 0 n) := by
  have differ : c.fileName .pendingCopy ≠ c.fileName .run := fun same => by
    have := Config.fileName_inj same
    contradiction
  have copied := Files.find_of_copy (Config.leads valid .run) (Config.leads valid .pendingCopy)
    differ (t := t) (e := e)
  have first : (t.copy c.paths.run c.paths.pendingCopy).2.find c.paths.pendingCopy = .ok e := by
    unfold SetPaths.begin at found
    rw [own] at found
    split at found
    · next failed => rwa [failed]
    · next u copied =>
      rw [copied]
      have keeps := Files.keeps_write (Config.leads valid .pendingHeader) u
        (CheckpointHeader.ofRun r family).text.toUTF8
      refine keeps.alters.find (Config.leads valid .pendingCopy) ?_ (e := e) ?_
      · simp only [List.mem_singleton]
        intro same
        have := Config.fileName_inj same
        contradiction
      · split at found
        · next written => exact written ▸ found
        · next written => exact written ▸ found
  exact copied first

/-! ## Putting it in place -/

/-- Moving one file of the set to another one alters the two. What was the first file is the other
one then. -/
theorem find_of_rename {c : Config} (valid : c.validate = .ok ()) {f g : SetFile} (differ : f ≠ g)
    {t u : Files} (renamed : t.rename (c.paths.path f) (c.paths.path g) = .ok u) :
    c.Alters [f, g] t u ∧ (∀ e, u.find (c.paths.path f) ≠ .ok e) ∧
      ∀ e, u.find (c.paths.path g) = .ok e → t.find (c.paths.path f) = .ok e :=
  Files.find_of_rename (Config.leads valid f) (Config.leads valid g)
    (Config.isName_fileName valid f) (Config.isName_fileName valid g)
    (fun same => differ (Config.fileName_inj same)) renamed

/-- A file of the set that is moved to another one of the set was there. -/
theorem exists_of_rename {c : Config} (valid : c.validate = .ok ()) {f g : SetFile} (differ : f ≠ g)
    {t u : Files} (renamed : t.rename (c.paths.path f) (c.paths.path g) = .ok u) :
    ∃ e, t.find (c.paths.path f) = .ok e :=
  Files.exists_of_rename (Config.leads valid f) (Config.leads valid g)
    (Config.isName_fileName valid f) (Config.isName_fileName valid g)
    (fun same => differ (Config.fileName_inj same)) renamed

/-- A file of the set that was moved to another one of the set is there. -/
theorem locate_rename {c : Config} (valid : c.validate = .ok ()) {f g : SetFile} (differ : f ≠ g)
    {t u : Files} (renamed : t.rename (c.paths.path f) (c.paths.path g) = .ok u)
    {contents : ByteArray} (found : t.find (c.paths.path f) = .ok (.file contents)) :
    c.Keeps [f, g] t u ∧ ∃ l, u.locate (c.paths.path g) = .ok (l, .file contents) :=
  Files.locate_rename (Config.leads valid f) (Config.leads valid g)
    (Config.isName_fileName valid f) (Config.isName_fileName valid g)
    (fun same => differ (Config.fileName_inj same)) renamed found

/-- Putting a checkpoint in place comes to nothing, or it moves the copy, and then the header if it
can. -/
inductive Commit (p : SetPaths) (t : Files) : Except Error Unit × Files → Prop where
  /-- Nothing is moved. -/
  | nothing (e : Error) : Commit p t (.error e, t)
  /-- The copy is moved, and the header cannot be. -/
  | halfway (v : Files) (fault : FileFault) (first : t.rename p.pendingCopy p.copy = .ok v) :
    Commit p t (.error (.file p.header fault), v)
  /-- Both are moved. -/
  | done (v u : Files) (first : t.rename p.pendingCopy p.copy = .ok v)
    (second : v.rename p.pendingHeader p.header = .ok u) : Commit p t (.ok (), u)

/-- Putting a checkpoint in place comes to one of these. -/
theorem commit_ends (p : SetPaths) (t : Files) : Commit p t (p.commit t) := by
  unfold commit
  split
  · split
    · exact .nothing _
    · next v first =>
      split
      · exact .halfway v _ first
      · next u second => exact .done v u first second
  · exact .nothing _

/-- A checkpoint that is put in place is moved, first its copy and then its header. -/
theorem commit_eq_ok {c : Config} {t u : Files} (committed : c.paths.commit t = (.ok (), u)) :
    ∃ v, t.rename (c.paths.path .pendingCopy) (c.paths.path .copy) = .ok v ∧
      v.rename (c.paths.path .pendingHeader) (c.paths.path .header) = .ok u := by
  have ends := c.paths.commit_ends t
  rw [committed] at ends
  cases ends with
  | done v u first second => exact ⟨v, first, second⟩

/-- A checkpoint that cannot be put in place leaves the files as they were, unless it is the header
that cannot be moved. -/
theorem commit_eq_error {c : Config} {t u : Files} {e : Error}
    (failed : c.paths.commit t = (.error e, u)) :
    u = t ∨ ∃ fault, e = .file c.paths.header fault := by
  have ends := c.paths.commit_ends t
  rw [failed] at ends
  cases ends with
  | nothing e => exact .inl rfl
  | halfway v fault first => exact .inr ⟨fault, rfl⟩

/-- Putting a checkpoint in place alters no file but those of checkpoints. -/
theorem alters_commit {c : Config} (valid : c.validate = .ok ()) (t : Files) :
    c.Alters checkpointFiles t (c.paths.commit t).2 := by
  have within {fs : List SetFile} (among : fs ⊆ checkpointFiles) :
      fs.map c.fileName ⊆ checkpointFiles.map c.fileName := List.map_subset _ among
  have moved {v : Files} (first : t.rename c.paths.pendingCopy c.paths.copy = .ok v) :
      c.Alters checkpointFiles t v :=
    (find_of_rename (f := .pendingCopy) (g := .copy) valid (by decide) first).1.mono
      (within (by decide))
  have ends := c.paths.commit_ends t
  generalize c.paths.commit t = o at ends ⊢
  cases ends with
  | nothing e => exact .nothing rfl
  | halfway v fault first => exact moved first
  | done v u first second =>
    exact (moved first).trans
      ((find_of_rename (f := .pendingHeader) (g := .header) valid (by decide) second).1.mono
        (within (by decide)))

/-- Putting a checkpoint in place leaves the files as they were or leaves no copy in progress. -/
theorem commit_cases {c : Config} (valid : c.validate = .ok ()) (t : Files) :
    (c.paths.commit t).2 = t ∨ ∀ e, (c.paths.commit t).2.find c.paths.pendingCopy ≠ .ok e := by
  have gone {v : Files} (first : t.rename c.paths.pendingCopy c.paths.copy = .ok v) :
      ∀ e, v.find c.paths.pendingCopy ≠ .ok e :=
    (find_of_rename (f := .pendingCopy) (g := .copy) valid (by decide) first).2.1
  have ends := c.paths.commit_ends t
  generalize c.paths.commit t = o at ends ⊢
  cases ends with
  | nothing e => exact .inl rfl
  | halfway v fault first => exact .inr (gone first)
  | done v u first second =>
    obtain ⟨altered, _, _⟩ :=
      find_of_rename (f := .pendingHeader) (g := .header) valid (by decide) second
    exact .inr fun e found => gone first e (altered.find (Config.leads valid .pendingCopy)
      (Config.fileName_not_mem [.pendingHeader, .header] (by decide)) found)

/-- What is in place after a checkpoint was put there is what was written aside, which is there no
more. -/
theorem find_of_commit {c : Config} (valid : c.validate = .ok ()) {t u : Files}
    (committed : c.paths.commit t = (.ok (), u)) :
    (∀ e, u.find c.paths.copy = .ok e → t.find c.paths.pendingCopy = .ok e) ∧
      (∀ e, u.find c.paths.header = .ok e → t.find c.paths.pendingHeader = .ok e) ∧
      ∀ e, u.find c.paths.pendingCopy ≠ .ok e := by
  obtain ⟨v, renamed, renamed'⟩ := commit_eq_ok committed
  obtain ⟨first, gone, copy⟩ := find_of_rename valid (by decide) renamed
  obtain ⟨second, _, header⟩ := find_of_rename valid (by decide) renamed'
  refine ⟨fun e found => copy e ?_, fun e found => ?_, fun e found => gone e ?_⟩
  · exact second.find (Config.leads valid .copy)
      (Config.fileName_not_mem [.pendingHeader, .header] (by decide)) found
  · exact first.find (Config.leads valid .pendingHeader)
      (Config.fileName_not_mem [.pendingCopy, .copy] (by decide)) (header e found)
  · exact second.find (Config.leads valid .pendingCopy)
      (Config.fileName_not_mem [.pendingHeader, .header] (by decide)) found

/-- What putting a checkpoint in place leaves in the place of the copy, also when it fails, is what
was there or what was written aside; and nothing new is written aside. -/
theorem find_copies_of_commit {c : Config} (valid : c.validate = .ok ()) (t : Files) (e : Entry) :
    ((c.paths.commit t).2.find c.paths.copy = .ok e →
        t.find c.paths.copy = .ok e ∨ t.find c.paths.pendingCopy = .ok e) ∧
      ((c.paths.commit t).2.find c.paths.pendingCopy = .ok e →
        t.find c.paths.pendingCopy = .ok e) := by
  constructor
  · intro found
    have moved {v : Files} (first : t.rename c.paths.pendingCopy c.paths.copy = .ok v) :
        v.find c.paths.copy = .ok e → t.find c.paths.pendingCopy = .ok e :=
      (find_of_rename (f := .pendingCopy) (g := .copy) valid (by decide) first).2.2 e
    have ends := c.paths.commit_ends t
    generalize c.paths.commit t = o at ends found
    cases ends with
    | nothing e => exact .inl found
    | halfway v fault first => exact .inr (moved first found)
    | done v u first second =>
      obtain ⟨altered, _, _⟩ :=
        find_of_rename (f := .pendingHeader) (g := .header) valid (by decide) second
      exact .inr (moved first (altered.find (Config.leads valid .copy)
        (Config.fileName_not_mem [.pendingHeader, .header] (by decide)) found))
  · intro found
    rcases commit_cases valid t with same | gone
    · exact same ▸ found
    · exact absurd found (gone e)

/-- A checkpoint that is put in place was there, its copy and its header. -/
theorem exists_of_commit {c : Config} (valid : c.validate = .ok ()) {t u : Files}
    (committed : c.paths.commit t = (.ok (), u)) :
    (∃ e, t.find c.paths.pendingCopy = .ok e) ∧ ∃ e, t.find c.paths.pendingHeader = .ok e := by
  obtain ⟨v, renamed, renamed'⟩ := commit_eq_ok committed
  obtain ⟨first, _, _⟩ := find_of_rename valid (by decide) renamed
  have copied := exists_of_rename valid (by decide) renamed
  obtain ⟨e, written⟩ := exists_of_rename valid (by decide) renamed'
  exact ⟨copied, e, first.find (Config.leads valid .pendingHeader)
    (Config.fileName_not_mem [.pendingCopy, .copy] (by decide)) written⟩

/-- A checkpoint that was written aside is in place after it was put there. -/
theorem locate_commit {c : Config} (valid : c.validate = .ok ()) {t u : Files}
    (committed : c.paths.commit t = (.ok (), u)) {copy header : ByteArray} {l m : Location}
    (copied : t.locate c.paths.pendingCopy = .ok (l, .file copy))
    (written : t.locate c.paths.pendingHeader = .ok (m, .file header)) :
    c.Keeps checkpointFiles t u ∧ (∃ l, u.locate c.paths.copy = .ok (l, .file copy)) ∧
      ∃ l, u.locate c.paths.header = .ok (l, .file header) := by
  have within {fs : List SetFile} (among : fs ⊆ checkpointFiles) :
      fs.map c.fileName ⊆ checkpointFiles.map c.fileName := List.map_subset _ among
  obtain ⟨v, renamed, renamed'⟩ := commit_eq_ok committed
  obtain ⟨first, n, moved⟩ :=
    locate_rename valid (by decide) renamed (Files.find_of_locate copied)
  have still := first.locate (Config.leads valid .pendingHeader)
    (Config.fileName_not_mem [.pendingCopy, .copy] (by decide)) written
  obtain ⟨second, moved'⟩ := locate_rename valid (by decide) renamed' (Files.find_of_locate still)
  refine ⟨(first.mono (within (by decide))).trans (second.mono (within (by decide))), ⟨n, ?_⟩,
    moved'⟩
  exact second.locate (Config.leads valid .copy)
    (Config.fileName_not_mem [.pendingHeader, .header] (by decide)) moved

/-! ## Going back to it -/

/-- The header in place is read if it is one of entries that can be stored, of the width and the
hash family. -/
theorem readHeader_of_find {p : SetPaths} {t : Files} {family : Family}
    {entries : Array (Fingerprint w)} (storable : Storable defaultBlockEntries entries)
    (found : t.find p.header =
      .ok (.file (CheckpointHeader.ofEntries family entries).text.toUTF8)) :
    p.readHeader w family t = .ok (.ofEntries family entries) := by
  simp only [readHeader, Files.readText_of_find found,
    CheckpointHeader.read_text (CheckpointHeader.readable_ofEntries storable family)]

/-- A copy that is made is that of the file in place, for which there is room. -/
theorem copied_eq_ok {p : SetPaths} {t : Files} {contents : ByteArray}
    (copied : p.copied t = .ok contents) :
    t.find p.copy = .ok (.file contents) ∧ excess? t.room contents.size = none := by
  unfold SetPaths.copied at copied
  split at copied
  · contradiction
  · next found read =>
    split at copied
    · contradiction
    · next room =>
      obtain rfl := Except.ok.inj copied
      exact ⟨Files.find_of_read read, room⟩

/-- The run is replaced by the copy, for which there is room, or nothing has changed. -/
theorem replaceRun_cases (p : SetPaths) (t : Files) :
    (∃ e, p.replaceRun t = (.error e, t)) ∨
      ∃ l contents, t.Takes p.run l ∧ t.CanDraft p.run ∧ t.find p.copy = .ok (.file contents) ∧
        excess? t.room contents.size = none ∧
        p.replaceRun t = (.ok (), t.place l (.file contents)) := by
  unfold replaceRun
  simp only
  split
  · exact .inl ⟨_, rfl⟩
  · next draft before begun =>
    have canDraft := Files.canDraft_of_begun begun
    have dropped : before.dropDraft draft = t := Files.dropDraft_of_beginDraft begun
    obtain ⟨_, sameRoom, without⟩ := Files.beginDraft_eq_ok begun
    split
    · exact .inl ⟨_, by rw [dropped]⟩
    · next contents copied =>
      split
      · exact .inl ⟨_, by rw [dropped]⟩
      · next committed =>
        obtain ⟨l, takes, rfl⟩ := Files.commitDraft_eq_ok committed
        obtain ⟨found, room⟩ := copied_eq_ok copied
        have same : before.find p.copy = (before.withoutDraft draft).find p.copy := rfl
        have takes' : (before.withoutDraft draft).Takes p.run l := ⟨takes.spotted, takes.free⟩
        rw [same] at found
        rw [without] at found takes' ⊢
        exact .inr ⟨l, contents, takes', canDraft, found, sameRoom ▸ room, rfl⟩

/-- The run is replaced by the copy where a draft can be begun and there is room. -/
theorem replaceRun_of_find {p : SetPaths} {t : Files} {l : Location} {contents : ByteArray}
    (takes : t.Takes p.run l) (canDraft : t.CanDraft p.run)
    (found : t.find p.copy = .ok (.file contents)) (fits : excess? t.room contents.size = none) :
    p.replaceRun t = (.ok (), t.place l (.file contents)) := by
  obtain ⟨draft, before, begun⟩ := canDraft.begun
  obtain ⟨_, room, without⟩ := Files.beginDraft_eq_ok begun
  have same : before.find p.copy = (before.withoutDraft draft).find p.copy := rfl
  have read : before.read p.copy = .ok contents := by
    rw [Files.read, same, without, found]
  have copied : p.copied before = .ok contents := by
    rw [SetPaths.copied, read, room]
    simp only [fits]
  simp only [replaceRun, begun, copied, Files.commitDraft_of_begun begun takes]

/-- A run of the entries of a header is opened by it. -/
theorem openRestored_of_find {p : SetPaths} {t : Files} {contents : ByteArray} (family : Family)
    {entries : Array (Fingerprint w)}
    (isRun : IsRun w contents ⟨w.bytes, entries.size, defaultBlockEntries⟩ entries)
    (found : t.find p.run = .ok (.file contents)) :
    p.openRestored (.ofEntries family entries) t =
      .ok (.ofEntries p.run defaultBlockEntries entries) := by
  have filled : 0 < defaultBlockEntries := by decide
  simp only [openRestored, CheckpointHeader.index_ofEntries,
    Run.openWithIndex_of_find filled isRun found, bind, Except.bind]
  rw [if_neg]
  rintro (count | blocks)
  · exact count rfl
  · exact blocks rfl

/-- A run of as many other entries is not opened by a header if it ends in another one. -/
theorem openRestored_of_back?_ne {p : SetPaths} {t : Files} {contents : ByteArray}
    (family : Family) {entries others : Array (Fingerprint w)}
    (isRun : IsRun w contents ⟨w.bytes, others.size, defaultBlockEntries⟩ others)
    (found : t.find p.run = .ok (.file contents)) (many : 0 < others.size)
    (count : others.size = entries.size) (last : entries.back? ≠ others.back?) :
    p.openRestored (.ofEntries family entries) t = .error (.corruptRun p.run .indexEnd) := by
  have filled : 0 < defaultBlockEntries := by decide
  have blocks : (blockMaxima defaultBlockEntries entries).size =
      RunHeader.blockCount ⟨w.bytes, others.size, defaultBlockEntries⟩ := by
    rw [size_blockMaxima filled, count]
  have final : (blockMaxima defaultBlockEntries entries).back? = entries.back? :=
    back?_blockMaxima filled entries (count ▸ many)
  have wrong : 0 < others.size ∧ entries.back? ≠ others.back? := ⟨many, last⟩
  simp only [openRestored, Run.openWithIndex, Run.map_of_find isRun found,
    CheckpointHeader.index_ofEntries, blocks, final, bind, Except.bind, ne_eq,
    not_true_eq_false, if_false]
  rw [if_pos wrong]

/-- A checkpoint is restored where a draft can be begun and there is room. -/
theorem restore_of_find {p : SetPaths} {t : Files} {l : Location} (family : Family)
    {entries : Array (Fingerprint w)} {contents : ByteArray}
    (isRun : IsRun w contents ⟨w.bytes, entries.size, defaultBlockEntries⟩ entries)
    (takes : t.Takes p.run l) (canDraft : t.CanDraft p.run)
    (found : t.find p.copy = .ok (.file contents)) (fits : excess? t.room contents.size = none) :
    p.restore (.ofEntries family entries) t =
      (.ok (.ofEntries p.run defaultBlockEntries entries), t.place l (.file contents)) := by
  have placed := Files.find_of_locate (takes.locate_place contents)
  simp only [restore, replaceRun_of_find takes canDraft found fits,
    openRestored_of_find family isRun placed]

/-- A header that is read is the text in its file. -/
theorem readHeader_eq_ok {p : SetPaths} {family : Family} {t : Files} {h : CheckpointHeader w}
    (read : p.readHeader w family t = .ok h) :
    ∃ header s, t.find p.header = .ok (.file header) ∧ t.readText p.header = .ok s ∧
      CheckpointHeader.read w family s = .ok h := by
  unfold readHeader at read
  split at read
  · contradiction
  · contradiction
  · next s text =>
    unfold Files.readText at text
    split at text
    · contradiction
    · next header contents =>
      refine ⟨header, s, Files.find_of_read contents, ?_, read⟩
      rw [Files.readText, contents]
      exact text

/-- The header in place is read as before where the file is still there. -/
theorem readHeader_of_keeps {c : Config} (valid : c.validate = .ok ()) {t u : Files}
    {fs : List SetFile} (keeps : c.Keeps fs t u) (other : .header ∉ fs)
    {h : CheckpointHeader w} (read : c.paths.readHeader w c.family t = .ok h) :
    c.paths.readHeader w c.family u = .ok h := by
  obtain ⟨header, s, found, text, read⟩ := readHeader_eq_ok read
  have same : u.find c.paths.header = t.find c.paths.header :=
    (Config.find_of_keeps valid keeps (f := .header) other found).trans found.symm
  have again : u.readText c.paths.header = .ok s := by
    rw [← text, Files.readText, Files.readText, Files.read, Files.read, same]
  rw [readHeader, again]
  exact read

/-- A run is opened by a header as any other with the same contents at its path. -/
theorem openRestored_congr {p : SetPaths} {h : CheckpointHeader w} {t u : Files}
    (same : t.find p.run = u.find p.run) : p.openRestored h t = p.openRestored h u := by
  simp only [openRestored, Run.openWithIndex, Run.map, same]

/-- What a header restores is restored as well where the copy is still there. -/
theorem restore_of_keeps {c : Config} (valid : c.validate = .ok ()) {t u v : Files}
    {fs : List SetFile} (keeps : c.Keeps fs t u) (other : .copy ∉ fs)
    {h : CheckpointHeader w} {disk : Run w} (restored : c.paths.restore h t = (.ok disk, v)) :
    ∃ v', c.paths.restore h u = (.ok disk, v') := by
  rcases c.paths.replaceRun_cases t with
    ⟨e, failed⟩ | ⟨l, copy, takes, canDraft, found, room, replaced⟩
  · rw [restore, failed] at restored
    exact nomatch (Prod.mk.inj restored).1
  · have still := keeps.takes (Config.leads valid .run) takes
    have replaced' := replaceRun_of_find still (canDraft.of_stays keeps.stays)
      (Config.find_of_keeps valid keeps (f := .copy) other found) (keeps.room.symm ▸ room)
    have same : (u.place l (.file copy)).find c.paths.run =
        (t.place l (.file copy)).find c.paths.run :=
      (Files.find_of_locate (still.locate_place copy)).trans
        (Files.find_of_locate (takes.locate_place copy)).symm
    simp only [restore, replaced] at restored
    refine ⟨u.place l (.file copy), ?_⟩
    simp only [restore, replaced', openRestored_congr same]
    rw [(Prod.mk.inj restored).1]

/-- Restoring what is a checkpoint of a run puts that run in place and opens it, or changes
nothing. -/
theorem restore_cases {p : SetPaths} {family : Family} {t : Files}
    (genuine : t.Genuine p.copy p.header) {h : CheckpointHeader w}
    (read : p.readHeader w family t = .ok h) :
    (∃ e, p.restore h t = (.error e, t)) ∨
      ∃ (l : Location) (entries : Array (Fingerprint w)) (copy header : ByteArray),
        t.Takes p.run l ∧ t.Pair p.copy p.header copy header ∧
        IsCheckpoint family entries copy header ∧
        p.restore h t =
          (.ok (.ofEntries p.run defaultBlockEntries entries), t.place l (.file copy)) := by
  rcases p.replaceRun_cases t with ⟨e, failed⟩ | ⟨l, copy, takes, _, found, _, replaced⟩
  · exact .inl ⟨e, by simp only [restore, failed]⟩
  · obtain ⟨header, s, found', text, read⟩ := readHeader_eq_ok read
    obtain ⟨v, own, entries, checkpoint⟩ := genuine copy header found found'
    have pair : t.Pair p.copy p.header copy header := ⟨found, found'⟩
    rw [checkpoint.header] at found'
    rw [Files.readText_of_find found'] at text
    rw [← Except.ok.inj text] at read
    obtain ⟨rfl, rfl, same⟩ := CheckpointHeader.eq_of_read_text
      (CheckpointHeader.readable_ofEntries checkpoint.storable own) read
    obtain rfl := eq_of_heq same
    refine .inr ⟨l, entries, copy, header, takes, pair, checkpoint, ?_⟩
    have placed := Files.find_of_locate (takes.locate_place copy)
    simp only [restore, replaced, openRestored_of_find own checkpoint.copy placed]

end SetPaths

end SeenStates
