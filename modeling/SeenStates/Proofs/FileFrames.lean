import SeenStates.Files.Draft

/-!
# What an operation on files leaves alone

A walk goes through directories only, so it goes as before wherever the directories on its way are
still there (`Stays`). That is all an operation on other files has to be asked for: a file that a
path led to is still what it leads to (`locate_of_stays`), and a file that was put in place is what
its path leads to now (`locate_of_commitDraft`).
-/
namespace SeenStates

namespace Files

/-! ## Ways that stay -/

/-- There is a directory at a location and at each location above it. -/
def IsOpen (t : Files) (l : Location) : Prop := ∀ p, p <+: l → t.lookup p = some .directory

/-- Where there were directories all the way down there still is one. -/
def Stays (t u : Files) : Prop := ∀ l, t.IsOpen l → u.lookup l = some .directory

/-- Each location above an open one is open. -/
theorem IsOpen.above {t : Files} {l p : Location} (isOpen : t.IsOpen l) (above : p <+: l) :
    t.IsOpen p :=
  fun q further => isOpen q (further.trans above)

/-- An open location stays open. -/
theorem Stays.isOpen {t u : Files} (stays : Stays t u) {l : Location} (isOpen : t.IsOpen l) :
    u.IsOpen l :=
  fun p above => stays p (isOpen.above above)

/-- Every directory of a tree stays in that tree. -/
theorem Stays.refl (t : Files) : Stays t t := fun l isOpen => isOpen l (List.prefix_refl l)

/-- What stays over two changes stays. -/
theorem Stays.trans {t u v : Files} (first : Stays t u) (second : Stays u v) : Stays t v :=
  fun l isOpen => second l (first.isOpen isOpen)

/-- A path begins at an open location. -/
theorem isOpen_origin (t : Files) (path : String) : t.IsOpen (origin path) := by
  have free (l : Location) (above : l <+: start) : t.lookup l = some .directory := by
    simp [lookup, Location.isWithin, above]
  intro p above
  unfold origin at above
  split at above
  · exact free p (above.trans (List.nil_prefix))
  · exact free p above

/-- Where a step leads to: it stays, goes back, or goes down into a directory that is there. -/
theorem advance_eq_ok {t : Files} {l m : Location} {piece : Path.Piece} :
    t.advance l piece = .ok m ↔
      Path.isIdle piece ∧ m = l ∨
      ¬ Path.isIdle piece ∧ Path.isBack piece ∧ m = l.dropLast ∨
      ¬ Path.isIdle piece ∧ ¬ Path.isBack piece ∧ ¬ isTooLong (String.ofList piece) ∧
        t.lookup m = some .directory ∧ m = l ++ [String.ofList piece] := by
  unfold advance
  constructor
  · intro stepped
    split at stepped
    · next idle => exact .inl ⟨idle, (Except.ok.inj stepped).symm⟩
    · next further =>
      split at stepped
      · next back => exact .inr (.inl ⟨further, back, (Except.ok.inj stepped).symm⟩)
      · next down =>
        simp only at stepped
        split at stepped
        · contradiction
        · next short =>
          split at stepped
          · contradiction
          · contradiction
          · next here =>
            obtain rfl := Except.ok.inj stepped
            exact .inr (.inr ⟨further, down, short, here, rfl⟩)
  · rintro (⟨idle, rfl⟩ | ⟨further, back, rfl⟩ | ⟨further, down, short, here, rfl⟩)
    · rw [if_pos idle]
    · rw [if_neg further, if_pos back]
    · rw [if_neg further, if_neg down]
      simp only [if_neg short, here]

/-- A step leads from an open location to another one. -/
theorem IsOpen.advance {t : Files} {l m : Location} (isOpen : t.IsOpen l) {piece : Path.Piece}
    (stepped : t.advance l piece = .ok m) : t.IsOpen m := by
  rcases advance_eq_ok.1 stepped with ⟨_, rfl⟩ | ⟨_, _, rfl⟩ | ⟨_, _, _, here, rfl⟩
  · exact isOpen
  · exact isOpen.above (List.dropLast_prefix l)
  · intro p above
    rcases List.prefix_concat_iff.1 above with rfl | above
    · exact here
    · exact isOpen p above

/-- A walk goes on through a directory that is still there. -/
theorem advance_of_lookup {t u : Files} {l m : Location} {piece : Path.Piece}
    (stepped : t.advance l piece = .ok m) (there : u.lookup m = some .directory) :
    u.advance l piece = .ok m := by
  refine advance_eq_ok.2 ((advance_eq_ok.1 stepped).imp_right fun further => ?_)
  exact further.imp_right fun ⟨idle, back, short, _, down⟩ => ⟨idle, back, short, there, down⟩

/-- A step that leads on still does where the directories stay. -/
theorem Stays.advance {t u : Files} (stays : Stays t u) {l m : Location} {piece : Path.Piece}
    (isOpen : t.IsOpen l) (stepped : t.advance l piece = .ok m) : u.advance l piece = .ok m :=
  advance_of_lookup stepped (stays _ (isOpen.advance stepped))

/-- Steps that lead on still do where the directories stay. -/
theorem Stays.foldlM_advance {t u : Files} (stays : Stays t u) {l m : Location}
    {pieces : List Path.Piece} (isOpen : t.IsOpen l)
    (walked : pieces.foldlM t.advance l = .ok m) :
    t.IsOpen m ∧ pieces.foldlM u.advance l = .ok m := by
  induction pieces generalizing l with
  | nil =>
    obtain rfl := Except.ok.inj walked
    exact ⟨isOpen, rfl⟩
  | cons piece rest ih =>
    rw [List.foldlM_cons] at walked ⊢
    cases stepped : t.advance l piece with
    | error fault => simp [stepped, bind, Except.bind] at walked
    | ok next =>
      rw [stepped] at walked
      rw [stays.advance isOpen stepped]
      exact ih (isOpen.advance stepped) walked

/-- A walk that leads somewhere still does where the directories stay. -/
theorem Stays.walk {t u : Files} (stays : Stays t u) {path : String} {m : Location}
    {pieces : List Path.Piece} (walked : t.walk (t.originTrail path) pieces = .ok m) :
    t.IsOpen m ∧ u.walk (u.originTrail path) pieces = .ok m := by
  rw [walk_eq (isTrail_originTrail t path), location_originTrail] at walked
  rw [walk_eq (isTrail_originTrail u path), location_originTrail]
  exact stays.foldlM_advance (isOpen_origin t path) walked

/-- A path that leads to a directory still does where the directories stay. -/
theorem Stays.enter {t u : Files} (stays : Stays t u) {path : String} {l : Location}
    (entered : t.enter path = .ok l) : u.enter path = .ok l :=
  (stays.walk entered).2

/-- A path comes down to the same where the directories stay. -/
theorem Stays.spot {t u : Files} (stays : Stays t u) {path : String} {s : Spot}
    (spotted : t.spot path = .ok s) : u.spot path = .ok s := by
  unfold Files.spot at spotted ⊢
  split at spotted
  · contradiction
  · next plain =>
    rw [if_neg plain]
    split at spotted
    · contradiction
    · next filled =>
      rw [if_neg filled]
      split at spotted
      · contradiction
      · next short =>
        rw [if_neg short]
        simp only at spotted ⊢
        cases pieces : (Path.pieces path.toList).reverse.dropWhile (· = []) with
        | nil =>
          rw [pieces] at spotted
          exact spotted
        | cons last before =>
          rw [pieces] at spotted
          cases walked : t.walk (t.originTrail path) before.reverse with
          | error fault => simp [walked, bind, Except.bind] at spotted
          | ok here =>
            simp only [walked, (stays.walk walked).2] at spotted ⊢
            exact spotted

/-! ## Files that stay -/

/-- A path comes down to a location where a file can be: to its name, without a slash behind it,
and no directory is there. -/
structure Takes (t : Files) (path : String) (l : Location) : Prop where
  /-- The path comes down to the name of the location. -/
  spotted : ∃ into name, t.spot path = .ok (.named into name false) ∧ isTooLong name = false ∧
    l = into ++ [name]
  /-- No directory is there. -/
  free : t.lookup l ≠ some .directory

/-- A path leads to a file when it can and the file is there. -/
theorem locate_eq_file_iff {t : Files} {path : String} {l : Location} {contents : ByteArray} :
    t.locate path = .ok (l, .file contents) ↔
      t.Takes path l ∧ t.lookup l = some (.file contents) := by
  constructor
  · intro located
    unfold locate at located
    cases spotted : t.spot path with
    | error fault => simp [spotted, Except.bind] at located
    | ok s =>
      rw [spotted] at located
      cases s with
      | dots directory => simp [entryAt, Except.bind] at located
      | named into name slashed =>
        simp only [entryAt, Except.bind] at located
        split at located
        · contradiction
        · next short =>
          split at located
          · contradiction
          · next there =>
            cases slashed with
            | true => simp at located
            | false =>
              simp only [Bool.false_eq_true, if_false, Except.ok.injEq, Prod.mk.injEq,
                Entry.file.injEq] at located
              obtain ⟨rfl, rfl⟩ := located
              exact ⟨⟨⟨into, name, spotted, by simpa using short, rfl⟩, by simp [there]⟩, there⟩
          · simp at located
  · rintro ⟨⟨⟨into, name, spotted, short, rfl⟩, _⟩, there⟩
    simp [locate, spotted, Except.bind, entryAt, short, there]

/-- Where the directories stay and none is made at a location, a path still comes down to it. -/
theorem Takes.of_stays {t u : Files} {path : String} {l : Location} (takes : t.Takes path l)
    (stays : Stays t u) (free : u.lookup l ≠ some .directory) : u.Takes path l := by
  obtain ⟨into, name, spotted, short, named⟩ := takes.spotted
  exact ⟨⟨into, name, stays.spot spotted, short, named⟩, free⟩

/-- What a path leads to is still what it leads to where the directories stay and it is there. -/
theorem locate_of_stays {t u : Files} (stays : Stays t u) {path : String} {l : Location}
    {contents : ByteArray} (located : t.locate path = .ok (l, .file contents))
    (kept : u.lookup l = t.lookup l) : u.locate path = .ok (l, .file contents) := by
  obtain ⟨takes, there⟩ := locate_eq_file_iff.1 located
  exact locate_eq_file_iff.2 ⟨takes.of_stays stays (by simp [kept, there]), kept.trans there⟩

/-- A file is found where its path leads. -/
theorem find_of_locate {t : Files} {path : String} {l : Location} {e : Entry}
    (located : t.locate path = .ok (l, e)) : t.find path = .ok e := by
  simp [find, located, Except.map]

/-- Where a path leads to nothing no entry is found. -/
theorem find_ne_ok {t : Files} {path : String} (absent : (t.find path).isOk = false) (e : Entry) :
    t.find path ≠ .ok e := fun found => by
  simp [found, Except.isOk, Except.toBool] at absent

/-- A file that is found is somewhere. -/
theorem locate_of_find {t : Files} {path : String} {e : Entry} (found : t.find path = .ok e) :
    ∃ l, t.locate path = .ok (l, e) := by
  unfold find at found
  cases located : t.locate path with
  | error fault => simp [located, Except.map] at found
  | ok pair =>
    rw [located] at found
    obtain ⟨l, e'⟩ := pair
    obtain rfl := Except.ok.inj found
    exact ⟨l, rfl⟩

/-- What is read is a file that the path leads to. -/
theorem find_of_read {t : Files} {path : String} {contents : ByteArray}
    (readable : t.read path = .ok contents) : t.find path = .ok (.file contents) := by
  unfold read at readable
  split at readable
  · next found => rw [found, Except.ok.inj readable]
  · contradiction
  · contradiction

/-! ## Placing a file -/

/-- Where no directory stands the starting directory does not either. -/
theorem free_of_lookup_ne {t : Files} {l : Location} (noDirectory : t.lookup l ≠ some .directory) :
    start.isWithin l = false := by
  cases within : start.isWithin l with
  | false => rfl
  | true => exact absurd (by simp [lookup, within]) noDirectory

/-- Where nothing changes but what stands at one location, which is no directory, the directories
stay. -/
theorem stays_of_lookup {t u : Files} {l : Location} (noDirectory : t.lookup l ≠ some .directory)
    (others : ∀ m, m ≠ l → u.lookup m = t.lookup m) : Stays t u := by
  intro m isOpen
  have there := isOpen m (List.prefix_refl m)
  rw [others m fun same => noDirectory (same ▸ there), there]

/-- Where an entry takes the place of something other than a directory the directories stay. -/
theorem stays_place {t : Files} {l : Location} (noDirectory : t.lookup l ≠ some .directory)
    (e : Entry) : Stays t (t.place l e) :=
  stays_of_lookup noDirectory fun _ => lookup_place_of_ne

/-- A file that was put in place is what its path leads to. -/
theorem Takes.locate_place {t : Files} {path : String} {l : Location} (takes : t.Takes path l)
    (contents : ByteArray) :
    (t.place l (.file contents)).locate path = .ok (l, .file contents) := by
  have there : (t.place l (.file contents)).lookup l = some (.file contents) :=
    lookup_place_self (free_of_lookup_ne takes.free)
  exact locate_eq_file_iff.2
    ⟨takes.of_stays (stays_place takes.free _) (by simp [there]), there⟩

/-! ## Drafts -/

/-- A draft is somewhere among the drafts, and nowhere else. -/
theorem beginDraft_eq_ok {t u : Files} {directory name : String} {d : Draft}
    (begun : t.beginDraft directory name = .ok (d, u)) :
    u.root = t.root ∧ u.room = t.room ∧ u.withoutDraft d = t := by
  unfold beginDraft at begun
  simp only at begun
  split at begun
  · contradiction
  · split at begun
    · contradiction
    · split at begun
      · contradiction
      · split at begun
        · contradiction
        · obtain ⟨rfl, rfl⟩ := Prod.mk.inj (Except.ok.inj begun)
          have fresh : t.drafts.filter (fun e => !decide (e.1 = t.freshNumber)) = t.drafts :=
            List.filter_eq_self.2 fun e drafted => by
              have smaller := lt_freshNumber drafted
              simp only [Bool.not_eq_true', decide_eq_false_iff_not]
              omega
          exact ⟨rfl, rfl, by simp [withoutDraft, fresh]⟩

/-- A file fits a location that has no slash behind its name and where no directory stands. -/
theorem unfit?_eq_none {t : Files} {source l : Location} {slashed : Bool}
    (fits : t.unfit? source slashed l = none) :
    slashed = false ∧ t.lookup l ≠ some .directory := by
  unfold unfit? at fits
  split at fits
  · contradiction
  · next unslashed =>
    split at fits
    · contradiction
    · split at fits
      · contradiction
      · next noDirectory => exact ⟨by simpa using unslashed, noDirectory⟩

/-- A draft that is put in place takes the place of its target. -/
theorem commitDraft_eq_ok {t u : Files} {d : Draft} {target : String} {contents : ByteArray}
    (committed : t.commitDraft d target contents = .ok u) :
    ∃ l, t.Takes target l ∧ u = (t.withoutDraft d).place l (.file contents) := by
  unfold commitDraft at committed
  split at committed
  · contradiction
  · cases entered : t.enter d.directory with
    | error fault => simp [entered, bind, Except.bind] at committed
    | ok here =>
      cases spotted : t.spot target with
      | error fault => simp [entered, spotted, bind, Except.bind] at committed
      | ok s =>
        simp only [entered, spotted, bind, Except.bind] at committed
        cases s with
        | dots directory => simp at committed
        | named into name slashed =>
          simp only at committed
          split at committed
          · contradiction
          · split at committed
            · contradiction
            · next short =>
              split at committed
              · contradiction
              · next fits =>
                obtain ⟨rfl, noDirectory⟩ := unfit?_eq_none fits
                exact ⟨into ++ [name], ⟨⟨into, name, spotted, by simpa using short, rfl⟩,
                  noDirectory⟩, (Except.ok.inj committed).symm⟩

/-- A directory that a path leads to is open. -/
theorem isOpen_of_enter {t : Files} {path : String} {l : Location}
    (entered : t.enter path = .ok l) :
    t.IsOpen l :=
  ((Stays.refl t).walk entered).1

/-- A draft that was begun can be put in place where a file can be. -/
theorem commitDraft_of_begun {t u : Files} {directory name : String} {d : Draft}
    (begun : t.beginDraft directory name = .ok (d, u)) {target : String} {l : Location}
    (takes : t.Takes target l) (contents : ByteArray) :
    u.commitDraft d target contents = .ok (t.place l (.file contents)) := by
  obtain ⟨_, _, without⟩ := beginDraft_eq_ok begun
  obtain ⟨into, file, spotted, short, rfl⟩ := takes.spotted
  have plain : hasNull target = false := by
    cases null : hasNull target with
    | false => rfl
    | true => simp [spot, null] at spotted
  unfold beginDraft at begun
  simp only at begun
  split at begun
  · contradiction
  · split at begun
    · contradiction
    · split at begun
      · contradiction
      · next here entered =>
        split at begun
        · contradiction
        · obtain ⟨rfl, rfl⟩ := Prod.mk.inj (Except.ok.inj begun)
          have above : Location.isWithin here (into ++ [file]) = false := by
            cases within : Location.isWithin here (into ++ [file]) with
            | false => rfl
            | true =>
              have prefixed : into ++ [file] <+: here := List.isPrefixOf_iff_prefix.1 within
              exact absurd (isOpen_of_enter entered _ prefixed) takes.free
          have fits : unfit? { t with drafts := (t.freshNumber, some here) :: t.drafts } here false
              (into ++ [file]) = none := by
            have free : ({ t with drafts := (t.freshNumber, some here) :: t.drafts } : Files).lookup
                (into ++ [file]) ≠ some .directory := takes.free
            simp only [unfit?, above, free, Bool.false_eq_true, if_false]
          have spotted' : ({ t with drafts := (t.freshNumber, some here) :: t.drafts } : Files).spot
              target = .ok (.named into file false) := spotted
          simp only [commitDraft, plain, enter_withDrafts, entered, spotted', short, fits, without,
            List.lookup_cons_self, ne_eq, not_true_eq_false, Bool.false_eq_true, if_false, bind,
            Except.bind]

/-- The drafts beside a path can be spelled. -/
structure DraftsFit (path : String) : Prop where
  /-- The directory of the path can be. -/
  plain : hasNull (Path.parent path) = false
  /-- The path of a draft without a name of its own is not too long. -/
  short : (Path.parent path).utf8ByteSize + 1 + draftAffix < pathLimit

/-- A draft can be begun beside a path: it can be spelled, and its directory is there. -/
structure CanDraft (t : Files) (path : String) : Prop where
  /-- It can be spelled. -/
  fits : DraftsFit path
  /-- The directory is there. -/
  entered : ∃ here, t.enter (Path.parent path) = .ok here

/-- Where a draft can be begun it can be while every directory stays. -/
theorem CanDraft.of_stays {t u : Files} {path : String} (canDraft : t.CanDraft path)
    (stays : Stays t u) : u.CanDraft path := by
  obtain ⟨here, entered⟩ := canDraft.entered
  exact ⟨canDraft.fits, here, stays.enter entered⟩

/-- Where a draft can be begun it is begun. -/
theorem CanDraft.begun {t : Files} {path : String} (canDraft : t.CanDraft path) :
    ∃ d u, t.beginDraft (Path.parent path) "" = .ok (d, u) := by
  obtain ⟨here, entered⟩ := canDraft.entered
  have null : hasNull "" = false := by decide
  have bytes : "".utf8ByteSize + draftAffix = draftAffix := by decide
  have name : ¬ nameLimit < draftAffix := by decide
  refine ⟨⟨Path.parent path, t.freshNumber⟩,
    { t with drafts := (t.freshNumber, some here) :: t.drafts }, ?_⟩
  simp only [beginDraft, canDraft.fits.plain, null, bytes, Nat.not_le.2 canDraft.fits.short,
    entered, name, Bool.or_self, Bool.false_eq_true, if_false]

/-- A draft is begun in a directory that is there and can be spelled, with a path that is not too
long. -/
theorem entered_of_beginDraft {t : Files} {directory name : String} {begun : Draft × Files}
    (begins : t.beginDraft directory name = .ok begun) :
    hasNull directory = false ∧ directory.utf8ByteSize + 1 + draftAffix < pathLimit ∧
      ∃ here, t.enter directory = .ok here := by
  unfold beginDraft at begins
  simp only at begins
  split at begins
  · contradiction
  · next plain =>
    split at begins
    · contradiction
    · next short =>
      split at begins
      · contradiction
      · next here entered =>
        simp only [Bool.or_eq_true, not_or, Bool.not_eq_true] at plain
        exact ⟨plain.1, by omega, here, entered⟩

/-- Where a draft was begun another one can be. -/
theorem canDraft_of_begun {t : Files} {path name : String} {begun : Draft × Files}
    (begins : t.beginDraft (Path.parent path) name = .ok begun) : t.CanDraft path := by
  obtain ⟨plain, short, entered⟩ := entered_of_beginDraft begins
  exact ⟨⟨plain, short⟩, entered⟩

/-- Where a draft of the file was begun another one can be. A path without a directory part is in
the starting directory. -/
theorem canDraft_of_begun_directory {t : Files} {path name : String} {begun : Draft × Files}
    (begins : t.beginDraft (Path.directory path) name = .ok begun) : t.CanDraft path := by
  by_cases nothing : (Path.parent path).isEmpty
  · have empty : Path.parent path = "" := String.isEmpty_iff.1 nothing
    exact ⟨⟨by rw [empty]; decide, by rw [empty]; decide⟩, start, by rw [empty]; rfl⟩
  · have same : Path.directory path = Path.parent path := by
      rw [Path.directory]
      exact if_neg nothing
    exact canDraft_of_begun (same ▸ begins)

end Files

end SeenStates
