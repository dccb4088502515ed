import SeenStates.Proofs.Siblings

/-!
# What an operation on files changes

An operation on some names of a directory (`Alters`) changes nothing of what the other paths into
the directory lead to. One that makes and moves no directories (`Keeps`) leaves every way to a
file open as well, so that a file is still found where it was. Files are put in place, moved and
deleted in this sense; a directory can be moved in the first sense only.
-/
namespace SeenStates

namespace Files

/-! ## Changes -/

/-- From one tree to another nothing changes in a directory but some names, or nothing at all. -/
inductive Alters (directory : String) (names : List String) (t u : Files) : Prop where
  /-- Nothing changes. -/
  | nothing (same : u = t)
  /-- Every other name in the directory stands for what it stood for. -/
  | names (here : Location) (entered : t.enter directory = .ok here)
    (kept : ∀ name, name ∉ names → u.lookup (here ++ [name]) = t.lookup (here ++ [name]))

/-- What changes some names changes no more than these and others. -/
theorem Alters.mono {directory : String} {names more : List String} {t u : Files}
    (alters : Alters directory names t u) (subset : names ⊆ more) : Alters directory more t u := by
  cases alters with
  | nothing same => exact .nothing same
  | names here entered kept =>
    exact .names here entered fun name other => kept name fun member => other (subset member)

/-- What changes some names in one step and in the next changes them in both. -/
theorem Alters.trans {directory : String} {names : List String} {t u v : Files}
    (first : Alters directory names t u) (second : Alters directory names u v) :
    Alters directory names t v := by
  cases first with
  | nothing same => exact same ▸ second
  | names here entered kept =>
    cases second with
    | nothing same => exact same ▸ .names here entered kept
    | names there entered' kept' =>
      obtain rfl := enter_unique entered entered'
      exact .names here entered fun name other => (kept' name other).trans (kept name other)

/-- What another path into the directory leads to afterwards it led to before. -/
theorem Alters.find {directory : String} {names : List String} {t u : Files}
    (alters : Alters directory names t u) {path name : String} (leads : Leads path directory name)
    (other : name ∉ names) {e : Entry} (found : u.find path = .ok e) : t.find path = .ok e := by
  cases alters with
  | nothing same => exact same ▸ found
  | names here entered kept =>
    obtain ⟨there, entered', spotted, short, found⟩ := leads.find_eq_ok found
    obtain rfl := enter_unique entered entered'
    exact find_of_lookup (leads.spot_eq spotted entered) short ((kept name other).symm.trans found)

/-- From one tree to another some names of a directory change, every directory and the room stay,
and none is made in the directory. -/
structure Keeps (directory : String) (names : List String) (t u : Files) : Prop where
  /-- No other names change. -/
  alters : Alters directory names t u
  /-- Every directory stays. -/
  stays : Stays t u
  /-- The room stays. -/
  room : u.room = t.room
  /-- What is not a directory does not become one. -/
  free : ∀ here name, t.enter directory = .ok here →
    t.lookup (here ++ [name]) ≠ some .directory → u.lookup (here ++ [name]) ≠ some .directory

/-- No change keeps everything. -/
theorem Keeps.refl (directory : String) (names : List String) (t : Files) :
    Keeps directory names t t :=
  ⟨.nothing rfl, .refl t, rfl, fun _ _ _ free => free⟩

/-- What changes some names changes no more than these and others. -/
theorem Keeps.mono {directory : String} {names more : List String} {t u : Files}
    (keeps : Keeps directory names t u) (subset : names ⊆ more) : Keeps directory more t u :=
  { keeps with alters := keeps.alters.mono subset }

/-- What is kept in one step and in the next is kept in both. -/
theorem Keeps.trans {directory : String} {names : List String} {t u v : Files}
    (first : Keeps directory names t u) (second : Keeps directory names u v) :
    Keeps directory names t v :=
  ⟨first.alters.trans second.alters, first.stays.trans second.stays, second.room.trans first.room,
    fun here name entered free =>
      second.free here name (first.stays.enter entered) (first.free here name entered free)⟩

/-- A path into the directory that can take a file still can. -/
theorem Keeps.takes {directory : String} {names : List String} {t u : Files}
    (keeps : Keeps directory names t u) {path name : String} (leads : Leads path directory name)
    {l : Location} (takes : t.Takes path l) : u.Takes path l := by
  obtain ⟨here, entered, rfl⟩ := leads.takes takes
  exact takes.of_stays keeps.stays (keeps.free here name entered takes.free)

/-- A file that another path into the directory leads to is still what it leads to. -/
theorem Keeps.locate {directory : String} {names : List String} {t u : Files}
    (keeps : Keeps directory names t u) {path name : String} (leads : Leads path directory name)
    (other : name ∉ names) {l : Location} {contents : ByteArray}
    (located : t.locate path = .ok (l, .file contents)) :
    u.locate path = .ok (l, .file contents) := by
  obtain ⟨takes, there⟩ := locate_eq_file_iff.1 located
  have still := keeps.takes leads takes
  obtain ⟨here, entered, rfl⟩ := leads.takes takes
  have same : u.lookup (here ++ [name]) = t.lookup (here ++ [name]) := by
    cases keeps.alters with
    | nothing same => rw [same]
    | names there entered' kept =>
      obtain rfl := enter_unique entered entered'
      exact kept name other
  exact locate_eq_file_iff.2 ⟨still, same.trans there⟩

/-! ## Putting files in place -/

/-- Putting a file in the place of one, or of nothing, changes its name only. -/
theorem keeps_place {t : Files} {path directory name : String} (leads : Leads path directory name)
    {l : Location} (takes : t.Takes path l) (contents : ByteArray) :
    Keeps directory [name] t (t.place l (.file contents)) := by
  obtain ⟨here, entered, rfl⟩ := leads.takes takes
  have others (other : String) (differ : other ≠ name) :
      (t.place (here ++ [name]) (.file contents)).lookup (here ++ [other]) =
        t.lookup (here ++ [other]) :=
    lookup_place_of_ne fun same => differ (by simpa using same)
  refine ⟨.names here entered fun other differ => others other (by simpa using differ),
    stays_place takes.free _, rfl, fun there other entered' free => ?_⟩
  obtain rfl := enter_unique entered entered'
  by_cases same : other = name
  · rw [same, lookup_place_self (free_of_lookup_ne takes.free)]
    simp
  · rwa [others other same]

/-- Where a file can be written, its path can take it. -/
theorem takes_of_writable {t : Files} {path : String} {l : Location}
    (writable : (t.spot path).bind t.writable = .ok l) : t.Takes path l := by
  cases spotted : t.spot path with
  | error fault => simp [spotted, Except.bind] at writable
  | ok s =>
    rw [spotted] at writable
    cases s with
    | dots here => simp [Files.writable, Except.bind] at writable
    | named into name slashed =>
      simp only [Files.writable, Except.bind] at writable
      split at writable
      · contradiction
      · next unslashed =>
        split at writable
        · contradiction
        · next short =>
          split at writable
          · contradiction
          · next noDirectory =>
            obtain rfl := Except.ok.inj writable
            refine ⟨⟨into, name, ?_, by simpa using short, rfl⟩, noDirectory⟩
            rw [spotted, show slashed = false by simpa using unslashed]

/-- As much of a file as there is room for is put in place, and all of it if there is no fault. -/
theorem fill_cases {t : Files} (l : Location) (contents : ByteArray) :
    (t.fill l contents = (.ok (), t.place l (.file contents)) ∧
        excess? t.room contents.size = none) ∨
      ∃ fault n, t.fill l contents =
        (.error fault, t.place l (.file (contents.extract 0 n))) := by
  unfold fill
  cases excess : excess? t.room contents.size with
  | some fault => exact .inr ⟨fault, _, rfl⟩
  | none => exact .inl ⟨rfl, rfl⟩

/-- Writing a file changes its name only. -/
theorem keeps_write {path directory name : String} (leads : Leads path directory name) (t : Files)
    (contents : ByteArray) : Keeps directory [name] t (t.write path contents).2 := by
  unfold write
  split
  · exact .refl ..
  · next l writable =>
    have takes := takes_of_writable writable
    rcases t.fill_cases l contents with ⟨filled, _⟩ | ⟨fault, n, filled⟩
    · rw [filled]
      exact keeps_place leads takes contents
    · rw [filled]
      exact keeps_place leads takes _

/-- A file that was written is there. -/
theorem locate_write {t u : Files} {path : String} {contents : ByteArray}
    (written : t.write path contents = (.ok (), u)) :
    ∃ l, u.locate path = .ok (l, .file contents) := by
  unfold write at written
  split at written
  · simp at written
  · next l writable =>
    rcases t.fill_cases l contents with ⟨filled, _⟩ | ⟨fault, n, filled⟩
    · rw [filled, Prod.mk.injEq] at written
      exact ⟨l, written.2 ▸ (takes_of_writable writable).locate_place contents⟩
    · simp [filled] at written

/-- A file that a path leads to is not where a path to another name of its directory comes down
to. -/
theorem Takes.ne_of_leads {t : Files} {source path : String} {first second directory : String}
    {own l : Location} {contents : ByteArray} (takes : t.Takes path l)
    (leads : Leads source directory first) (leads' : Leads path directory second)
    (differ : second ≠ first) (located : t.locate source = .ok (own, .file contents)) :
    own ≠ l := by
  obtain ⟨here, entered, rfl⟩ := leads.takes (locate_eq_file_iff.1 located).1
  obtain ⟨there, entered', rfl⟩ := leads'.takes takes
  intro same
  have names := (List.append_inj' same rfl).2
  exact differ (List.singleton_inj.1 names).symm

/-- Copying a file changes the name of the copy only. -/
theorem keeps_copy {path directory name : String} (leads : Leads path directory name) (t : Files)
    (source : String) : Keeps directory [name] t (t.copy source path).2 := by
  unfold copy
  split
  · exact .refl ..
  · exact .refl ..
  · next own contents _ =>
    split
    · exact .refl ..
    · next l writable =>
      have takes := takes_of_writable writable
      rcases t.fill_cases l (if own = l then .empty else contents) with
        ⟨filled, _⟩ | ⟨fault, n, filled⟩
      · rw [filled]
        exact keeps_place leads takes _
      · rw [filled]
        exact keeps_place leads takes _

/-- What a copy leads to, also one that is not complete, is what it led to before or the front of
what was copied. -/
theorem find_of_copy {t : Files} {source path : String} {first second directory : String}
    (leads : Leads source directory first) (leads' : Leads path directory second)
    (differ : second ≠ first) {e : Entry} (found : (t.copy source path).2.find path = .ok e) :
    t.find path = .ok e ∨
      ∃ contents n, t.find source = .ok (.file contents) ∧ e = .file (contents.extract 0 n) := by
  unfold copy at found
  split at found
  · exact .inl found
  · exact .inl found
  · next own contents located =>
    split at found
    · exact .inl found
    · next l writable =>
      have takes := takes_of_writable writable
      rw [if_neg (takes.ne_of_leads leads leads' differ located)] at found
      have whole : contents.extract 0 contents.size = contents := by simp
      have placed (part : ByteArray)
          (there : (t.place l (.file part)).find path = .ok e) : e = .file part :=
        Except.ok.inj (there.symm.trans (find_of_locate (takes.locate_place part)))
      refine .inr ⟨contents, ?_⟩
      rcases t.fill_cases l contents with ⟨filled, _⟩ | ⟨fault, n, filled⟩
      · rw [filled] at found
        exact ⟨contents.size, find_of_locate located, whole.symm ▸ placed _ found⟩
      · rw [filled] at found
        exact ⟨n, find_of_locate located, placed _ found⟩

/-- A file that was copied under another name is there, and there was room for it. -/
theorem locate_copy {t u : Files} {source path : String} {first second directory : String}
    (leads : Leads source directory first) (leads' : Leads path directory second)
    (differ : second ≠ first) (copied : t.copy source path = (.ok (), u)) :
    ∃ l contents, t.find source = .ok (.file contents) ∧
      u.locate path = .ok (l, .file contents) ∧ excess? t.room contents.size = none := by
  unfold copy at copied
  split at copied
  · simp at copied
  · simp at copied
  · next own contents located =>
    split at copied
    · simp at copied
    · next l writable =>
      have takes := takes_of_writable writable
      rw [if_neg (takes.ne_of_leads leads leads' differ located)] at copied
      rcases t.fill_cases l contents with ⟨filled, fits⟩ | ⟨fault, n, filled⟩
      · rw [filled, Prod.mk.injEq] at copied
        exact ⟨l, contents, find_of_locate located, copied.2 ▸ takes.locate_place contents, fits⟩
      · simp [filled] at copied

/-! ## Moving -/

/-- Moving leaves alone what is neither at or below where it moves from nor where it moves to. -/
theorem lookup_moved_of_apart (t : Files) {source target l : Location}
    (source_apart : ¬ source <+: l)
    (target'apart : ¬ target <+: l) : (t.moved source target).lookup l = t.lookup l := by
  have offSource : l ≠ source := by
    rintro rfl
    exact source_apart (List.prefix_refl l)
  have offTarget : l ≠ target := by
    rintro rfl
    exact target'apart (List.prefix_refl l)
  unfold lookup moved
  split
  · rfl
  · simp only [Directory.get?_graft_of_not_below (.inr target'apart),
      Directory.get?_set_of_ne offTarget, Directory.get?_graft_of_not_below (.inr source_apart),
      Directory.get?_set_of_ne offSource]

/-- What was moved is where it was moved to. -/
theorem lookup_moved_target (t : Files) {source target : Location}
    (free : start.isWithin target = false) (free' : start.isWithin source = false) :
    (t.moved source target).lookup target = t.lookup source := by
  simp only [lookup, free, free', moved, Bool.false_eq_true, if_false,
    Directory.get?_graft_of_not_below (.inl rfl), Directory.get?_set_self (ne_nil_of_free free)]

/-- Nothing is where something was moved from. -/
theorem lookup_moved_source (t : Files) {source target : Location}
    (free : start.isWithin source = false) (apart : ¬ target <+: source) :
    (t.moved source target).lookup source = none := by
  have differ : source ≠ target := by
    rintro rfl
    exact apart (List.prefix_refl source)
  simp only [lookup, free, moved, Bool.false_eq_true, if_false,
    Directory.get?_graft_of_not_below (.inr apart), Directory.get?_set_of_ne differ,
    Directory.get?_graft_of_not_below (.inl rfl), Directory.get?_set_self (ne_nil_of_free free)]

/-- Names in one directory are apart when they differ. -/
theorem not_prefix_of_ne {here : Location} {name other : String} (differ : name ≠ other) :
    ¬ here ++ [name] <+: here ++ [other] := by
  intro below
  rw [List.prefix_append_right_inj] at below
  exact differ (by simpa using below)

/-- The starting directory is not under a name that a file can have. -/
theorem free_of_isName {name : String} (isName : Path.IsName name) (here : Location) :
    start.isWithin (here ++ [name]) = false := by
  have spelled : name ≠ startName := by
    rintro rfl
    exact isName.ne_nil rfl
  match here with
  | [] => simpa [start, Location.isWithin, List.isPrefixOf] using spelled
  | [_] => simp [start, Location.isWithin, List.isPrefixOf]
  | _ :: _ :: _ => simp [start, Location.isWithin, List.isPrefixOf]

/-- What moving from one name to another one of a directory comes to. -/
structure Moved (t : Files) (here : Location) (name other : String) (u : Files) : Prop where
  /-- Nothing is under the first name. -/
  gone : u.lookup (here ++ [name]) = none
  /-- What was under the first name is under the other one. -/
  there : u.lookup (here ++ [other]) = t.lookup (here ++ [name])
  /-- All other names stand for what they stood for. -/
  kept : ∀ x, x ∉ [name, other] → u.lookup (here ++ [x]) = t.lookup (here ++ [x])
  /-- The room stays. -/
  room : u.room = t.room
  /-- Moving a file moves no directory. -/
  stays : t.lookup (here ++ [name]) ≠ some .directory → Stays t u

/-- Moving to another name of the directory moves what is under the name. -/
theorem moved_of_rename {t u : Files} {path target directory name other : String}
    (leads : Leads path directory name) (leads' : Leads target directory other)
    (isName : Path.IsName name) (isName' : Path.IsName other) (differ : name ≠ other)
    (renamed : t.rename path target = .ok u) :
    ∃ here e, t.enter directory = .ok here ∧ t.spot path = .ok (.named here name false) ∧
      t.spot target = .ok (.named here other false) ∧ isTooLong name = false ∧
      isTooLong other = false ∧ t.lookup (here ++ [name]) = some e ∧ Moved t here name other u := by
  unfold rename at renamed
  cases spotted : t.spot path with
  | error fault => simp [spotted, bind, Except.bind] at renamed
  | ok s =>
    cases spotted' : t.spot target with
    | error fault => simp [spotted, spotted', bind, Except.bind] at renamed
    | ok d =>
      obtain ⟨here, entered, rfl⟩ := leads.spotted spotted
      obtain ⟨there, entered', rfl⟩ := leads'.spotted spotted'
      obtain rfl := enter_unique entered entered'
      simp only [spotted, spotted', bind, Except.bind] at renamed
      cases entry : t.entryAt (.named here name false) with
      | error fault => simp [entry] at renamed
      | ok pair =>
        obtain ⟨l, e⟩ := pair
        obtain ⟨rfl, short, stood⟩ := entryAt_named entry
        have apart : here ++ [name] ≠ here ++ [other] := fun same => differ (by simpa using same)
        simp only [entry, if_neg apart] at renamed
        split at renamed
        · contradiction
        · next short' =>
          split at renamed
          · contradiction
          · next fits =>
            obtain rfl := Except.ok.inj renamed
            refine ⟨here, e, entered, rfl, rfl, short, by simpa using short', stood, ?_⟩
            have free := free_of_isName isName here
            have free' := free_of_isName isName' here
            refine ⟨lookup_moved_source t free (not_prefix_of_ne differ.symm),
              lookup_moved_target t free' free, fun x apart => ?_, rfl, fun file m isOpen => ?_⟩
            · simp only [List.mem_cons, List.not_mem_nil, or_false, not_or] at apart
              exact lookup_moved_of_apart t (not_prefix_of_ne (Ne.symm apart.1))
                (not_prefix_of_ne (Ne.symm apart.2))
            · cases e with
              | directory => exact absurd stood file
              | file contents =>
                have noDirectory := (unfit?_eq_none fits).2
                rw [lookup_moved_of_apart t (fun below => file (isOpen _ below))
                  fun below => noDirectory (isOpen _ below)]
                exact isOpen m (List.prefix_refl m)

/-- What a path leads to after a move to it, the path that it was moved from led to before. The
latter leads to nothing any more. -/
theorem find_of_rename {t u : Files} {path target directory name other : String}
    (leads : Leads path directory name) (leads' : Leads target directory other)
    (isName : Path.IsName name) (isName' : Path.IsName other) (differ : name ≠ other)
    (renamed : t.rename path target = .ok u) :
    Alters directory [name, other] t u ∧ (∀ e, u.find path ≠ .ok e) ∧
      ∀ e, u.find target = .ok e → t.find path = .ok e := by
  obtain ⟨here, _, entered, spotted, _, short, _, _, moved⟩ :=
    moved_of_rename leads leads' isName isName' differ renamed
  refine ⟨.names here entered moved.kept, fun e found => ?_, fun e found => ?_⟩
  · obtain ⟨there, entered', _, _, stood⟩ := leads.find_eq_ok found
    obtain rfl := enter_unique entered entered'
    rw [moved.gone] at stood
    contradiction
  · obtain ⟨there, entered', _, _, stood⟩ := leads'.find_eq_ok found
    obtain rfl := enter_unique entered entered'
    exact find_of_lookup spotted short (moved.there.symm.trans stood)

/-- What is moved was there. -/
theorem exists_of_rename {t u : Files} {path target directory name other : String}
    (leads : Leads path directory name) (leads' : Leads target directory other)
    (isName : Path.IsName name) (isName' : Path.IsName other) (differ : name ≠ other)
    (renamed : t.rename path target = .ok u) : ∃ e, t.find path = .ok e := by
  obtain ⟨_, e, _, spotted, _, short, _, stood, _⟩ :=
    moved_of_rename leads leads' isName isName' differ renamed
  exact ⟨e, find_of_lookup spotted short stood⟩

/-- A file that was moved is there, and nothing else has changed. -/
theorem locate_rename {t u : Files} {path target directory name other : String}
    (leads : Leads path directory name) (leads' : Leads target directory other)
    (isName : Path.IsName name) (isName' : Path.IsName other) (differ : name ≠ other)
    (renamed : t.rename path target = .ok u) {contents : ByteArray}
    (found : t.find path = .ok (.file contents)) :
    Keeps directory [name, other] t u ∧ ∃ l, u.locate target = .ok (l, .file contents) := by
  obtain ⟨here, _, entered, _, spotted, _, short, _, moved⟩ :=
    moved_of_rename leads leads' isName isName' differ renamed
  obtain ⟨there, entered', _, _, stood⟩ := leads.find_eq_ok found
  obtain rfl := enter_unique entered entered'
  have stays : Stays t u := moved.stays (by simp [stood])
  refine ⟨⟨.names here entered moved.kept, stays, moved.room, fun there x entered' free => ?_⟩, ?_⟩
  · obtain rfl := enter_unique entered entered'
    by_cases own : x = name
    · rw [own, moved.gone]
      simp
    · by_cases into : x = other
      · rw [into, moved.there, stood]
        simp
      · rwa [moved.kept x (by simp [own, into])]
  · exact locate_of_find (find_of_lookup (stays.spot spotted) short (moved.there.trans stood))

/-! ## Deleting -/

/-- Deleting a file changes its name only. -/
theorem keeps_removeFile {t u : Files} {path directory name : String}
    (leads : Leads path directory name) (removed : t.removeFile path = .ok u) :
    Keeps directory [name] t u := by
  unfold removeFile at removed
  split at removed
  · contradiction
  · contradiction
  · next l contents located =>
    obtain rfl := Except.ok.inj removed
    obtain ⟨takes, there⟩ := locate_eq_file_iff.1 located
    obtain ⟨here, entered, rfl⟩ := leads.takes takes
    have others (other : String) (differ : other ≠ name) :
        (t.clear (here ++ [name])).lookup (here ++ [other]) = t.lookup (here ++ [other]) :=
      lookup_clear_of_ne fun same => differ (by simpa using same)
    refine ⟨.names here entered fun other differ => others other (by simpa using differ),
      fun m isOpen => ?_, rfl, fun there other entered' free => ?_⟩
    · have stood := isOpen m (List.prefix_refl m)
      rw [lookup_clear_of_ne, stood]
      rintro rfl
      exact takes.free stood
    · obtain rfl := enter_unique entered entered'
      by_cases same : other = name
      · rw [same, lookup_clear_self (free_of_lookup_ne takes.free)]
        simp
      · rwa [others other same]

/-! ## Making directories -/

/-- From one tree to another everything stays where it stood, no file is added, and drafts and room
stay. -/
structure Grows (t u : Files) : Prop where
  /-- Everything stays. -/
  kept : ∀ l e, t.lookup l = some e → u.lookup l = some e
  /-- No file is added. -/
  files : ∀ l contents, u.lookup l = some (.file contents) → t.lookup l = some (.file contents)
  /-- The drafts stay. -/
  drafts : u.drafts = t.drafts
  /-- The room stays. -/
  room : u.room = t.room

/-- A tree grows into itself. -/
theorem Grows.refl (t : Files) : Grows t t :=
  ⟨fun _ _ there => there, fun _ _ there => there, rfl, rfl⟩

/-- A tree that grows twice grows. -/
theorem Grows.trans {t u v : Files} (first : Grows t u) (second : Grows u v) : Grows t v :=
  ⟨fun l e there => second.kept l e (first.kept l e there),
    fun l contents there => first.files l contents (second.files l contents there),
    second.drafts.trans first.drafts, second.room.trans first.room⟩

/-- In a tree that grows the directories stay. -/
theorem Grows.stays {t u : Files} (grows : Grows t u) : Stays t u :=
  fun l isOpen => grows.kept l _ (isOpen l (List.prefix_refl l))

/-- In a tree that grows a file stays where its path leads. -/
theorem Grows.locate {t u : Files} (grows : Grows t u) {path : String} {l : Location}
    {contents : ByteArray} (located : t.locate path = .ok (l, .file contents)) :
    u.locate path = .ok (l, .file contents) := by
  have there := (locate_eq_file_iff.1 located).2
  exact locate_of_stays grows.stays located ((grows.kept l _ there).trans there.symm)

/-- Making a directory lets a tree grow. -/
theorem grows_makeDirectory {t u : Files} {path : String} (made : t.makeDirectory path = .ok u) :
    Grows t u := by
  unfold makeDirectory at made
  split at made
  · contradiction
  · contradiction
  · next directory name _ _ =>
    split at made
    · contradiction
    · split at made
      · contradiction
      · next vacant =>
        obtain rfl := Except.ok.inj made
        have free : t.lookup (directory ++ [name]) ≠ some .directory := fun there =>
          vacant (by simp [there])
        refine ⟨fun l e there => ?_, fun l contents there => ?_, rfl, rfl⟩
        · rw [lookup_place_of_ne, there]
          rintro rfl
          simp [there] at vacant
        · rwa [lookup_place_of_ne] at there
          rintro rfl
          simp [lookup_place_self (free_of_lookup_ne free)] at there

/-- Making a directory writes no file beside it. -/
theorem find_of_makeDirectory {t u : Files} {path target directory name other : String}
    (leads : Leads path directory name) (leads' : Leads target directory other)
    (made : t.makeDirectory path = .ok u) {contents : ByteArray}
    (found : u.find target = .ok (.file contents)) : t.find target = .ok (.file contents) := by
  unfold makeDirectory at made
  split at made
  · contradiction
  · contradiction
  · next spotted =>
    obtain ⟨here, entered, same⟩ := leads.spotted spotted
    obtain ⟨into, spelled, _⟩ := Spot.named.inj same
    rw [into, spelled] at made
    split at made
    · contradiction
    · split at made
      · contradiction
      · obtain rfl := Except.ok.inj made
        obtain ⟨there, entered', spotted', short, stood⟩ := leads'.find_eq_ok found
        obtain rfl := enter_unique entered' entered
        by_cases own : there ++ [other] = there ++ [name]
        · rw [own] at stood
          have free : start.isWithin (there ++ [name]) = false := by
            rw [Bool.eq_false_iff]
            intro within
            rw [lookup, if_pos within] at stood
            exact Entry.noConfusion (Option.some.inj stood)
          rw [lookup_place_self free] at stood
          exact Entry.noConfusion (Option.some.inj stood)
        · rw [lookup_place_of_ne own] at stood
          exact find_of_lookup (leads'.spot_eq spotted' entered) short stood

/-- Making sure of a directory lets a tree grow. -/
theorem grows_ensureDirectory {t u : Files} {path : String}
    (made : t.ensureDirectory path = .ok u) : Grows t u := by
  unfold ensureDirectory at made
  split at made
  · next new =>
    obtain rfl := Except.ok.inj made
    exact grows_makeDirectory new
  · split at made
    · obtain rfl := Except.ok.inj made
      exact .refl t
    · contradiction

/-- Making a directory after another one lets a tree grow if making that one does. -/
theorem grows_makeAfter {makeAbove : Files → Except FileFault Unit × Files}
    (above : ∀ t, Grows t (makeAbove t).2) (t : Files) (path : String) :
    Grows t (t.makeAfter path makeAbove).2 := by
  unfold makeAfter
  split
  · next made => exact grows_ensureDirectory made
  · have first := above t
    split
    · next failed =>
      rw [failed] at first
      exact first
    · next made =>
      rw [made] at first
      split
      · next made' => exact first.trans (grows_ensureDirectory made')
      · exact first
  · exact .refl t

/-- Making a directory and those on the way to it lets a tree grow. -/
theorem grows_makeDirectories (t : Files) (path : String) :
    Grows t (t.makeDirectories path).2 := by
  have chain (paths : List String) : ∀ t, Grows t (makeChain paths t).2 := by
    induction paths with
    | nil => exact fun t => .refl t
    | cons path above ih => exact fun t => grows_makeAfter ih t path
  unfold makeDirectories
  split
  · exact .refl t
  · exact grows_makeAfter (chain _) t path

end Files

end SeenStates
