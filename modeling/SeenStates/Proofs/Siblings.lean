import SeenStates.Proofs.FileFrames

/-!
# Files of one directory

Where a walk leads depends on its pieces alone, as long as it leads anywhere (`enter_unique`). So a
path that joins a directory and the name of a file comes down to that name in one place
(`leads_join`).
-/
namespace SeenStates

/-! ## Names -/

namespace Path

/-- A text that is the name of a file: it has no slash, and is neither idle nor leads back. -/
structure IsName (name : String) : Prop where
  /-- It has no slash. -/
  plain : '/' ∉ name.toList
  /-- It goes somewhere. -/
  further : isIdle name.toList = false
  /-- It does not lead back. -/
  down : isBack name.toList = false

/-- A name is not empty. -/
theorem IsName.ne_nil {name : String} (isName : IsName name) : name.toList ≠ [] := by
  intro nothing
  have further := isName.further
  rw [nothing] at further
  contradiction

/-- A name is no absolute path. -/
theorem IsName.relative {name : String} (isName : IsName name) : isAbsolute name = false := by
  rw [isAbsolute, decide_eq_false_iff_not]
  intro first
  exact isName.plain (List.mem_of_mem_head? first)

/-- A joined path starts at the root if its directory does. -/
theorem isAbsolute_join {name : String} (isName : IsName name) (directory : String) :
    isAbsolute (join directory name) = isAbsolute directory := by
  have relative := isName.relative
  unfold join
  rw [relative, Bool.false_or]
  split
  · next nothing =>
    have empty : directory = "" := String.isEmpty_iff.1 nothing
    rw [empty, relative]
    rfl
  · next something =>
    have filled : directory.toList ≠ [] := by
      intro nothing
      exact something (String.isEmpty_iff.2 (String.toList_eq_nil_iff.1 nothing))
    obtain ⟨c, rest, spelled⟩ := List.exists_cons_of_ne_nil filled
    unfold isAbsolute
    split <;> simp [spelled]

/-- The last piece of a joined path is its name. In front of it are the pieces of its directory, or
what is left of them without an empty last piece. -/
theorem pieces_join {name : String} (isName : IsName name) (directory : String) :
    ∃ before, pieces (join directory name).toList = before ++ [name.toList] ∧
      (pieces directory.toList = before ∨ pieces directory.toList = before ++ [[]]) := by
  have own := pieces_eq_singleton isName.plain
  unfold join
  rw [isName.relative, Bool.false_or]
  split
  · next nothing =>
    have empty : directory = "" := String.isEmpty_iff.1 nothing
    exact ⟨[], own, .inr (by rw [empty]; rfl)⟩
  · split
    · next slashed =>
      obtain ⟨front, spelled⟩ := List.getLast?_eq_some_iff.1 slashed
      refine ⟨pieces front, ?_, .inr ?_⟩
      · have joined : (directory ++ name).toList = front ++ '/' :: name.toList := by
          simp [spelled]
        rw [joined, pieces_append_slash, own]
      · rw [spelled, pieces_append_slash]
        rfl
    · refine ⟨pieces directory.toList, ?_, .inl rfl⟩
      have joined : (directory ++ "/" ++ name).toList = directory.toList ++ '/' :: name.toList := by
        simp
      rw [joined, pieces_append_slash, own]

/-- No piece of a text has a slash. -/
theorem plain_of_mem_pieces {cs : List Char} {piece : Piece} (member : piece ∈ pieces cs) :
    '/' ∉ piece := by
  induction cs generalizing piece with
  | nil =>
    obtain rfl := List.mem_singleton.1 member
    exact List.not_mem_nil
  | cons c rest ih =>
    unfold pieces at member
    split at member
    · rcases List.mem_cons.1 member with rfl | later
      · exact List.not_mem_nil
      · exact ih later
    · next noSlash =>
      split at member
      · next nothing => exact absurd nothing (pieces_ne_nil rest)
      · next first more found =>
        rcases List.mem_cons.1 member with rfl | later
        · rw [List.mem_cons, not_or]
          exact ⟨Ne.symm noSlash, ih (by simp [found])⟩
        · exact ih (by simp [found, later])

/-- Pieces with slashes between them are these pieces. -/
theorem pieces_unpieces {first : Piece} {ps : List Piece}
    (plain : ∀ piece ∈ first :: ps, '/' ∉ piece) :
    pieces (unpieces (first :: ps)) = first :: ps := by
  induction ps generalizing first with
  | nil =>
    have own : unpieces [first] = first := by simp [unpieces]
    rw [own, pieces_eq_singleton (plain first List.mem_cons_self)]
  | cons second rest ih =>
    have joined :
        unpieces (first :: second :: rest) = first ++ '/' :: unpieces (second :: rest) := by
      simp [unpieces, List.intercalate]
    rw [joined, pieces_append_slash, pieces_eq_singleton (plain first List.mem_cons_self),
      ih fun piece member => plain piece (List.mem_cons_of_mem first member)]
    rfl

/-- A path starts at the root when it has more than one piece and the first one is empty. -/
theorem isAbsolute_iff {path : String} {first : Piece} {rest : List Piece}
    (spelled : pieces path.toList = first :: rest) :
    isAbsolute path = decide (first = [] ∧ rest ≠ []) := by
  unfold isAbsolute
  cases text : path.toList with
  | nil =>
    rw [text] at spelled
    obtain ⟨rfl, rfl⟩ := List.cons.inj spelled
    rfl
  | cons c more =>
    rw [text, pieces] at spelled
    split at spelled
    · next slash =>
      obtain ⟨rfl, rfl⟩ := List.cons.inj spelled
      simp [slash, pieces_ne_nil]
    · next noSlash =>
      split at spelled
      · obtain ⟨rfl, rfl⟩ := List.cons.inj spelled
        simp [noSlash]
      · obtain ⟨rfl, rfl⟩ := List.cons.inj spelled
        simp [noSlash]

/-- A shortened path has the pieces that are left, and one that is the root an empty one more. -/
theorem pieces_shortened {first : Piece} {reversed : List Piece}
    (plain : ∀ piece ∈ first :: reversed, '/' ∉ piece) :
    pieces (shortened first reversed).toList =
      if first = [] ∧ reversed.dropWhile isIdle = [] then [[], []]
      else first :: (reversed.dropWhile isIdle).reverse := by
  unfold shortened
  have left : ∀ piece ∈ first :: (reversed.dropWhile isIdle).reverse, '/' ∉ piece := by
    intro piece member
    refine plain piece ?_
    rcases List.mem_cons.1 member with rfl | later
    · exact List.mem_cons_self
    · exact List.mem_cons_of_mem first
        ((List.dropWhile_sublist isIdle).subset (List.mem_reverse.1 later))
  split
  · next nothing =>
    by_cases root : first = []
    · simp only [root, if_true, nothing, and_self]
      rfl
    · rw [if_neg root, if_neg fun both => root both.1, String.toList_ofList, nothing,
        pieces_eq_singleton (plain first List.mem_cons_self)]
      rfl
  · next kept something =>
    rw [if_neg fun both => something both.2, String.toList_ofList, pieces_unpieces left]

end Path

namespace Files

/-! ## Where walks lead -/

/-- A step leads to one location, in whatever tree it leads anywhere. -/
theorem advance_unique {t u : Files} {l m n : Location} {piece : Path.Piece}
    (first : t.advance l piece = .ok m) (second : u.advance l piece = .ok n) : m = n := by
  have place (t : Files) {m : Location} (stepped : t.advance l piece = .ok m) :
      m = if Path.isIdle piece then l else if Path.isBack piece then l.dropLast
        else l ++ [String.ofList piece] := by
    rcases advance_eq_ok.1 stepped with
      ⟨idle, rfl⟩ | ⟨further, back, rfl⟩ | ⟨further, down, _, _, rfl⟩
    · rw [if_pos idle]
    · rw [if_neg further, if_pos back]
    · rw [if_neg further, if_neg down]
  exact (place t first).trans (place u second).symm

/-- A path leads to one directory, in whatever tree it leads to one. -/
theorem enter_unique {t u : Files} {path : String} {m n : Location} (first : t.enter path = .ok m)
    (second : u.enter path = .ok n) : m = n := by
  have walks (pieces : List Path.Piece) : ∀ l, pieces.foldlM t.advance l = .ok m →
      pieces.foldlM u.advance l = .ok n → m = n := by
    induction pieces with
    | nil =>
      intro l here there
      exact (Except.ok.inj here).symm.trans (Except.ok.inj there)
    | cons piece rest ih =>
      intro l here there
      rw [List.foldlM_cons] at here there
      cases stepped : t.advance l piece with
      | error fault => simp [stepped, bind, Except.bind] at here
      | ok next =>
        cases also : u.advance l piece with
        | error fault => simp [also, bind, Except.bind] at there
        | ok other =>
          obtain rfl := advance_unique stepped also
          rw [stepped] at here
          rw [also] at there
          exact ih next here there
  rw [enter, walk_eq (isTrail_originTrail t path), location_originTrail] at first
  rw [enter, walk_eq (isTrail_originTrail u path), location_originTrail] at second
  exact walks _ _ first second

/-- Idle pieces at the end of a walk lead nowhere else. -/
theorem walk_append_idle (t : Files) (trail : Trail) (pieces : List Path.Piece)
    {idle : List Path.Piece} (all : ∀ piece ∈ idle, Path.isIdle piece) :
    t.walk trail (pieces ++ idle) = t.walk trail pieces := by
  have rests (trail : Trail) : idle.foldlM t.stepFrom trail = .ok trail := by
    induction idle with
    | nil => rfl
    | cons piece rest ih =>
      have stays : t.stepFrom trail piece = .ok trail := by
        rw [stepFrom, if_pos (all piece List.mem_cons_self)]
      rw [List.foldlM_cons, stays]
      exact ih fun piece member => all piece (List.mem_cons_of_mem _ member)
  unfold walk
  rw [List.foldlM_append]
  cases pieces.foldlM t.stepFrom trail with
  | error fault => rfl
  | ok next => simp [rests, bind, Except.bind]

/-- The walk along a shortened path is the walk along all of its pieces. -/
theorem enter_shortened (t : Files) {first : Path.Piece} {reversed : List Path.Piece}
    (plain : ∀ piece ∈ first :: reversed, '/' ∉ piece) {path : String}
    (absolute : Path.isAbsolute path = decide (first = [])) :
    t.enter (Path.shortened first reversed) =
      t.walk (t.originTrail path) (first :: reversed.reverse) := by
  have spelled := Path.pieces_shortened plain
  have split : first :: reversed.reverse =
      first :: (reversed.dropWhile Path.isIdle).reverse ++
        (reversed.takeWhile Path.isIdle).reverse := by
    rw [List.cons_append, ← List.reverse_append, List.takeWhile_append_dropWhile]
  have idle : ∀ piece ∈ (reversed.takeWhile Path.isIdle).reverse, Path.isIdle piece :=
    fun piece member => List.all_eq_true.1 List.all_takeWhile piece (List.mem_reverse.1 member)
  rw [split, walk_append_idle t _ _ idle, enter]
  by_cases root : first = [] ∧ reversed.dropWhile Path.isIdle = []
  · rw [if_pos root] at spelled
    have same : Path.isAbsolute (Path.shortened first reversed) = Path.isAbsolute path := by
      rw [Path.isAbsolute_iff spelled, absolute]
      simp [root.1]
    have origins : t.originTrail (Path.shortened first reversed) = t.originTrail path := by
      rw [originTrail, originTrail, same]
    have empty : ([[], []] : List Path.Piece) = [[]] ++ [[]] := rfl
    rw [spelled, origins, root.1, root.2, empty, walk_append_idle t _ _ (by simp [Path.isIdle])]
    rfl
  · rw [if_neg root] at spelled
    have same : Path.isAbsolute (Path.shortened first reversed) = Path.isAbsolute path := by
      rw [Path.isAbsolute_iff spelled, absolute]
      simp only [ne_eq, List.reverse_eq_nil_iff, decide_eq_decide, and_iff_left_iff_imp]
      exact fun nothing empty => root ⟨nothing, empty⟩
    rw [spelled, originTrail, originTrail, same]

/-- The directory part of a joined path is its directory. -/
theorem enter_parent_join (t : Files) {name : String} (isName : Path.IsName name)
    (directory : String) :
    t.enter (Path.parent (Path.join directory name)) = t.enter directory := by
  obtain ⟨before, spelled, above⟩ := Path.pieces_join isName directory
  have entered : t.walk (t.originTrail directory) before = t.enter directory := by
    rw [enter]
    rcases above with same | shorter
    · rw [same]
    · rw [shorter, walk_append_idle t _ _ (by simp [Path.isIdle])]
  cases before with
  | nil =>
    have none : Path.parent (Path.join directory name) = "" := by
      rw [Path.parent, spelled]
      rfl
    have empty : directory = "" := by
      have text := Path.unpieces_pieces directory.toList
      rcases above with same | single
      · exact absurd same (Path.pieces_ne_nil _)
      · rw [single] at text
        exact String.toList_eq_nil_iff.1 text.symm
    rw [none, empty]
  | cons first rest =>
    have parent : Path.parent (Path.join directory name) = Path.shortened first rest.reverse := by
      have behind : (rest ++ [name.toList]).reverse.dropWhile Path.isIdle =
          name.toList :: rest.reverse := by
        rw [List.reverse_append]
        exact List.dropWhile_cons_of_neg (by simp [isName.further])
      rw [Path.parent, spelled]
      simp only [List.cons_append, behind]
    have plain : ∀ piece ∈ first :: rest.reverse, '/' ∉ piece := by
      intro piece member
      have among : piece ∈ Path.pieces (Path.join directory name).toList := by
        rw [spelled]
        simp only [List.mem_cons, List.mem_reverse] at member
        rcases member with rfl | later
        · simp
        · simp [later]
      exact Path.plain_of_mem_pieces among
    have absolute : Path.isAbsolute directory = decide (first = []) := by
      rw [← Path.isAbsolute_join isName directory, Path.isAbsolute_iff spelled]
      simp
    rw [parent, enter_shortened t plain absolute, List.reverse_reverse, entered]

/-- A path is one to a name in a directory: it comes down to the name in that directory wherever
the directory is, or it cannot be followed at all. -/
def Leads (path directory name : String) : Prop :=
  (∃ fault, ∀ t : Files, t.spot path = .error fault) ∨
    ∀ t : Files, t.spot path = (t.enter directory).map fun here => .named here name false

/-- A joined path leads to its name. -/
theorem leads_join {name : String} (isName : Path.IsName name) (directory : String) :
    Leads (Path.join directory name) directory name := by
  obtain ⟨before, spelled, above⟩ := Path.pieces_join isName directory
  have origins (t : Files) :
      t.originTrail (Path.join directory name) = t.originTrail directory := by
    rw [originTrail, originTrail, Path.isAbsolute_join isName]
  have entered (t : Files) :
      t.walk (t.originTrail (Path.join directory name)) before = t.enter directory := by
    rw [origins, enter]
    rcases above with same | shorter
    · rw [same]
    · rw [shorter, walk_append_idle t _ _ (by simp [Path.isIdle])]
  by_cases null : hasNull (Path.join directory name)
  · exact .inl ⟨.invalidInput, fun t => by rw [spot, if_pos null]⟩
  · by_cases nothing : (Path.join directory name).isEmpty
    · exact .inl ⟨.notFound, fun t => by rw [spot, if_neg null, if_pos nothing]⟩
    · by_cases long : pathLimit ≤ (Path.join directory name).utf8ByteSize
      · exact .inl ⟨.invalidFilename, fun t => by
          rw [spot, if_neg null, if_neg nothing, if_pos long]⟩
      · refine .inr fun t => ?_
        have reversed : (Path.pieces (Path.join directory name).toList).reverse =
            name.toList :: before.reverse := by
          rw [spelled, List.reverse_append]
          rfl
        have first : (name.toList :: before.reverse).dropWhile (· = []) =
            name.toList :: before.reverse :=
          List.dropWhile_cons_of_neg (by simpa using isName.ne_nil)
        rw [spot, if_neg null, if_neg nothing, if_neg long]
        simp only [reversed, first, List.reverse_reverse, entered, isName.further, isName.down]
        cases t.enter directory with
        | error fault => rfl
        | ok here => simp [isName.ne_nil, Except.map, bind, Except.bind]

/-- A path that leads to a name leads to it in its directory. -/
theorem Leads.spotted {t : Files} {path directory name : String} (leads : Leads path directory name)
    {s : Spot} (spotted : t.spot path = .ok s) :
    ∃ here, t.enter directory = .ok here ∧ s = .named here name false := by
  rcases leads with ⟨fault, never⟩ | always
  · rw [never] at spotted
    contradiction
  · rw [always] at spotted
    cases entered : t.enter directory with
    | error fault => simp [entered, Except.map] at spotted
    | ok here =>
      rw [entered] at spotted
      exact ⟨here, rfl, (Except.ok.inj spotted).symm⟩

/-- A path that can be followed in one tree can be followed wherever its directory is. -/
theorem Leads.spot_eq {t u : Files} {path directory name : String}
    (leads : Leads path directory name) {s : Spot} (spotted : t.spot path = .ok s)
    {here : Location} (entered : u.enter directory = .ok here) :
    u.spot path = .ok (.named here name false) := by
  rcases leads with ⟨fault, never⟩ | always
  · rw [never] at spotted
    contradiction
  · rw [always, entered]
    rfl

/-- What stands at a name is what is under it. -/
theorem entryAt_named {t : Files} {here l : Location} {name : String} {e : Entry}
    (entry : t.entryAt (.named here name false) = .ok (l, e)) :
    l = here ++ [name] ∧ isTooLong name = false ∧ t.lookup (here ++ [name]) = some e := by
  simp only [entryAt] at entry
  split at entry
  · contradiction
  · next short =>
    split at entry
    · contradiction
    · next there =>
      obtain ⟨rfl, rfl⟩ := Prod.mk.inj (Except.ok.inj entry)
      exact ⟨rfl, by simpa using short, there⟩
    · next there =>
      obtain ⟨rfl, rfl⟩ := Prod.mk.inj (Except.ok.inj entry)
      exact ⟨rfl, by simpa using short, there⟩

/-- What such a path leads to is what stands under its name in its directory. -/
theorem Leads.find_eq_ok {t : Files} {path directory name : String}
    (leads : Leads path directory name) {e : Entry} (found : t.find path = .ok e) :
    ∃ here, t.enter directory = .ok here ∧ t.spot path = .ok (.named here name false) ∧
      isTooLong name = false ∧ t.lookup (here ++ [name]) = some e := by
  unfold find locate at found
  cases spotted : t.spot path with
  | error fault => simp [spotted, Except.bind, Except.map] at found
  | ok s =>
    obtain ⟨here, entered, rfl⟩ := leads.spotted spotted
    rw [spotted] at found
    simp only [Except.bind] at found
    cases entry : t.entryAt (.named here name false) with
    | error fault => simp [entry, Except.map] at found
    | ok pair =>
      rw [entry] at found
      obtain ⟨_, short, there⟩ := entryAt_named entry
      obtain rfl := Except.ok.inj found
      exact ⟨here, entered, rfl, short, there⟩

/-- What stands under the name of such a path is what it leads to. -/
theorem find_of_lookup {t : Files} {path : String} {here : Location} {name : String} {e : Entry}
    (spotted : t.spot path = .ok (.named here name false)) (short : isTooLong name = false)
    (there : t.lookup (here ++ [name]) = some e) : t.find path = .ok e := by
  cases e <;> simp [find, locate, spotted, Except.bind, entryAt, short, there, Except.map]

/-- A path that can take a file takes it under its name. -/
theorem Leads.takes {t : Files} {path directory name : String} (leads : Leads path directory name)
    {l : Location} (takes : t.Takes path l) :
    ∃ here, t.enter directory = .ok here ∧ l = here ++ [name] := by
  obtain ⟨into, spelled, spotted, _, named⟩ := takes.spotted
  obtain ⟨here, entered, same⟩ := leads.spotted spotted
  simp only [Spot.named.injEq, and_true] at same
  obtain ⟨rfl, rfl⟩ := same
  exact ⟨into, entered, named⟩

end Files

end SeenStates
