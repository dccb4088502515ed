import SeenStates.Proofs.CheckpointFiles

/-!
# Names that belong together

A scope is some of the names in a directory, and owns what stands at them and below. Operations on
paths to its names cannot tell trees apart that agree in the scope (`Files.Agree`), leave them in
agreement, and change nothing outside of it (`Files.Edits`). That holds also of a directory that is
moved from one of the names, as long as the path of the scope's directory does not go through that
name: a path that does is cut when the directory is moved.
-/
namespace SeenStates

/-! ## What is below a location -/

namespace Directory

/-- What stands below a location is what stands in what is below it. -/
theorem get?_append (d : Directory) (l : Location) {m : Location} (below : m ≠ []) :
    d.get? (l ++ m) = (d.within l).get? m := by
  obtain ⟨above, name, rfl⟩ := (List.eq_nil_or_concat m).resolve_left below
  rw [List.concat_eq_append, ← List.append_assoc, get?_append_singleton, get?_append_singleton,
    within_append]

/-- Nothing stands in the empty directory. -/
theorem get?_empty {l : Location} (below : l ≠ []) : empty.get? l = none := by
  induction l with
  | nil => contradiction
  | cons name rest ih =>
    cases rest with
    | nil => simp [get?, empty, entries]
    | cons second rest => exact ih (by simp)

/-- There is nothing in a directory exactly if nothing stands under any name. -/
theorem isVacant_iff {d : Directory} : d.isVacant ↔ ∀ name : String, d.entries[name]? = none := by
  rw [isVacant, Std.ExtTreeMap.isEmpty_iff, Std.ExtTreeMap.ext_getElem?_iff]
  simp

end Directory

namespace Files

/-- A location below one that the starting directory is not within is not above that either. -/
theorem free_append {l : Location} (free : start.isWithin l = false) (m : Location) :
    start.isWithin (l ++ m) = false := by
  rw [Bool.eq_false_iff] at free ⊢
  intro within
  have further : l ++ m <+: start := List.isPrefixOf_iff_prefix.1 within
  exact free (List.isPrefixOf_iff_prefix.2 ((List.prefix_append l m).trans further))

/-- Something stands below a location exactly if it does in every tree in which the same stands
there and in which the drafts are the same. -/
theorem hasBelow_congr {t u : Files} {l : Location} (free : start.isWithin l = false)
    (drafts : u.drafts = t.drafts)
    (same : ∀ name, u.lookup (l ++ [name]) = t.lookup (l ++ [name])) :
    u.hasBelow l = t.hasBelow l := by
  have entries (v : Files) (name : String) :
      (v.root.within l).entries[name]? = v.lookup (l ++ [name]) := by
    rw [lookup, free_append free, ← Directory.get?_append_singleton]
    rfl
  have vacant : (u.root.within l).isVacant = (t.root.within l).isVacant := by
    rw [Bool.eq_iff_iff, Directory.isVacant_iff, Directory.isVacant_iff]
    simp only [entries, same]
  rw [hasBelow, hasBelow, vacant, drafts]

/-- What was moved brings what is below it. -/
theorem lookup_moved_below_target (t : Files) {source target : Location}
    (free : start.isWithin target = false) (free' : start.isWithin source = false)
    (m : Location) : (t.moved source target).lookup (target ++ m) = t.lookup (source ++ m) := by
  by_cases below : m = []
  · subst below
    rw [List.append_nil, List.append_nil, lookup_moved_target t free free']
  · rw [lookup, lookup, free_append free, free_append free']
    simp only [Bool.false_eq_true, if_false, moved, Directory.get?_append _ _ below,
      Directory.within_graft_self]

/-- Nothing is left below where something was moved from. -/
theorem lookup_moved_below_source (t : Files) {source target : Location}
    (free : start.isWithin source = false) (m : Location)
    (apart : ¬ target <+: source ++ m) : (t.moved source target).lookup (source ++ m) = none := by
  by_cases below : m = []
  · subst below
    rw [List.append_nil] at apart ⊢
    exact lookup_moved_source t free apart
  · have differ : source ++ m ≠ target := by
      rintro rfl
      exact apart (List.prefix_refl _)
    rw [lookup, free_append free]
    simp only [Bool.false_eq_true, if_false, moved,
      Directory.get?_graft_of_not_below (.inr apart), Directory.get?_set_of_ne differ,
      Directory.get?_append _ _ below, Directory.within_graft_self, Directory.get?_empty below]

end Files

/-! ## Scopes -/

/-- Names in a directory that is there. -/
structure Scope where
  /-- The path of the directory. -/
  directory : String
  /-- Where it leads. -/
  here : Location
  /-- The names. -/
  names : String → Prop

/-- Whether a location is at one of the names or below. -/
def Scope.Owns (p : Scope) (l : Location) : Prop :=
  ∃ name, p.names name ∧ p.here ++ [name] <+: l

/-- What is below one of the names is owned. -/
theorem Scope.owns_below {p : Scope} {name : String} (own : p.names name) (m : Location) :
    p.Owns (p.here ++ [name] ++ m) :=
  ⟨name, own, List.prefix_append _ _⟩

/-- One of the names is owned. -/
theorem Scope.owns {p : Scope} {name : String} (own : p.names name) :
    p.Owns (p.here ++ [name]) :=
  ⟨name, own, List.prefix_refl _⟩

namespace Files

variable {p : Scope} {t u v : Files}

/-- Trees in which the names of a scope stand for the same, with the same drafts and as much
room. -/
structure Agree (p : Scope) (t u : Files) : Prop where
  /-- There is as much room. -/
  room : u.room = t.room
  /-- The drafts are the same. -/
  drafts : u.drafts = t.drafts
  /-- The directory is there in the one. -/
  entered : t.enter p.directory = .ok p.here
  /-- It is there in the other. -/
  entered' : u.enter p.directory = .ok p.here
  /-- The same stands at the names and below. -/
  lookup : ∀ l, p.Owns l → u.lookup l = t.lookup l

/-- From one tree to another nothing changes but what stands at the names of a scope and below, and
no draft is left behind. -/
structure Edits (p : Scope) (t u : Files) : Prop where
  /-- The room stays. -/
  room : u.room = t.room
  /-- No draft is left behind. -/
  drafts : t.drafts = [] → u.drafts = []
  /-- The directory is still there. -/
  entered : u.enter p.directory = .ok p.here
  /-- Everything else stands where it stood. -/
  lookup : ∀ l, ¬ p.Owns l → u.lookup l = t.lookup l

/-- No change edits nothing. -/
theorem Edits.refl (entered : t.enter p.directory = .ok p.here) : Edits p t t :=
  ⟨rfl, id, entered, fun _ _ => rfl⟩

/-- What is edited in one step and in the next is edited in both. -/
theorem Edits.trans (first : Edits p t u) (second : Edits p u v) : Edits p t v :=
  ⟨second.room.trans first.room, fun none => second.drafts (first.drafts none), second.entered,
    fun l other => (second.lookup l other).trans (first.lookup l other)⟩

/-- A tree agrees with itself. -/
theorem Agree.refl (entered : t.enter p.directory = .ok p.here) : Agree p t t :=
  ⟨rfl, rfl, entered, entered, fun _ _ => rfl⟩

/-- The tree after an operation, which is as it was if the operation failed. -/
def orAsBefore (t : Files) : Except FileFault Files → Except FileFault Unit × Files
  | .ok u => (.ok (), u)
  | .error fault => (.error fault, t)

/-- An operation that succeeded made the tree. -/
theorem orAsBefore_eq_ok {made : Except FileFault Files} (ended : t.orAsBefore made = (.ok (), u)) :
    made = .ok u := by
  cases made with
  | ok v => exact congrArg Except.ok (Prod.mk.inj ended).2
  | error fault => cases (Prod.mk.inj ended).1

/-- One that failed left the tree as it was. -/
theorem orAsBefore_eq_error {made : Except FileFault Files} {fault : FileFault}
    (ended : t.orAsBefore made = (.error fault, u)) : made = .error fault ∧ t = u := by
  cases made with
  | ok v => cases (Prod.mk.inj ended).1
  | error e =>
    obtain ⟨failed, same⟩ := Prod.mk.inj ended
    exact ⟨congrArg Except.error (Except.error.inj failed), same⟩

/-- An action, and another one after it unless it fails. -/
def attempt {α : Type} (wrap : FileFault → Error) (act : Files → Except FileFault Unit × Files)
    (next : Files → Except Error α × Files) (t : Files) : Except Error α × Files :=
  match act t with
  | (.error fault, t) => (.error (wrap fault), t)
  | (.ok (), t) => next t

/-- An operation that fails or makes another tree, and an action on that. -/
theorem attempt_orAsBefore {α : Type} (wrap : FileFault → Error)
    (op : Files → Except FileFault Files) (next : Files → Except Error α × Files) (t : Files) :
    attempt wrap (fun t => t.orAsBefore (op t)) next t =
      match op t with
      | .error fault => (.error (wrap fault), t)
      | .ok u => next u := by
  unfold attempt
  simp only
  cases op t <;> rfl

/-- What is edited under other names of the directory leaves trees in agreement. -/
theorem Agree.of_edits {q : Scope} (agree : Agree p t u) (directory : q.directory = p.directory)
    (here : q.here = p.here) (apart : ∀ name, p.names name → ¬ q.names name)
    (none : t.drafts = []) (edits : Edits q t v) : Agree p v u := by
  refine ⟨agree.room.trans edits.room.symm, ?_, ?_, agree.entered', fun l own => ?_⟩
  · rw [agree.drafts, none, edits.drafts none]
  · rw [← directory, ← here]
    exact edits.entered
  · rw [agree.lookup l own, edits.lookup l]
    rintro ⟨other, among, below⟩
    obtain ⟨name, own, below'⟩ := own
    rw [here] at below
    have same : p.here ++ [name] = p.here ++ [other] :=
      List.prefix_of_prefix_length_le below' below (by simp)
        |>.eq_of_length (by simp)
    obtain rfl : name = other := by simpa using same
    exact apart name own among

/-! ## Looking -/

section Looking

variable {path name : String}

/-- A path to a name of the directory cannot be followed in either tree, or it comes down to that
name in both. -/
theorem Agree.spot_cases (agree : Agree p t u) (leads : Leads path p.directory name) :
    (∃ fault, t.spot path = .error fault ∧ u.spot path = .error fault) ∨
      t.spot path = .ok (.named p.here name false) ∧
        u.spot path = .ok (.named p.here name false) := by
  rcases leads with ⟨fault, never⟩ | always
  · exact .inl ⟨fault, never t, never u⟩
  · refine .inr ⟨?_, ?_⟩
    · rw [always, agree.entered]
      rfl
    · rw [always, agree.entered']
      rfl

/-- The same stands at a name. -/
theorem Agree.entryAt (agree : Agree p t u) (own : p.names name) :
    u.entryAt (.named p.here name false) = t.entryAt (.named p.here name false) := by
  simp only [Files.entryAt, agree.lookup _ (p.owns own)]

/-- A path to a name leads to the same. -/
theorem Agree.locate (agree : Agree p t u) (leads : Leads path p.directory name)
    (own : p.names name) : u.locate path = t.locate path := by
  rcases agree.spot_cases leads with ⟨fault, failed, failed'⟩ | ⟨spotted, spotted'⟩
  · simp [Files.locate, failed, failed', Except.bind]
  · simp only [Files.locate, spotted, spotted', Except.bind, agree.entryAt own]

/-- What it leads to is found. -/
theorem Agree.find (agree : Agree p t u) (leads : Leads path p.directory name)
    (own : p.names name) : u.find path = t.find path := by
  rw [Files.find, agree.locate leads own, Files.find]

/-- It is read. -/
theorem Agree.read (agree : Agree p t u) (leads : Leads path p.directory name)
    (own : p.names name) : u.read path = t.read path := by
  rw [Files.read, agree.find leads own, Files.read]

/-- A file can be written to the same place. -/
theorem Agree.writable (agree : Agree p t u) (leads : Leads path p.directory name)
    (own : p.names name) :
    (u.spot path).bind u.writable = (t.spot path).bind t.writable := by
  rcases agree.spot_cases leads with ⟨fault, failed, failed'⟩ | ⟨spotted, spotted'⟩
  · rw [failed, failed']
    rfl
  · rw [spotted, spotted']
    simp only [Except.bind, Files.writable, agree.lookup _ (p.owns own)]

/-- A path that can take a file takes it at its name. -/
theorem Leads.takes_at (leads : Leads path p.directory name)
    (entered : t.enter p.directory = .ok p.here) {l : Location} (takes : t.Takes path l) :
    l = p.here ++ [name] := by
  obtain ⟨here, entered', rfl⟩ := leads.takes takes
  rw [entered] at entered'
  rw [← Except.ok.inj entered']

end Looking

/-! ## Changing what stands at a name -/

section Changing

variable {name : String} {t' u' : Files}

/-- A change of what stands at a name, if that is no directory, edits the name. -/
theorem Edits.of_change (own : p.names name) (entered : t.enter p.directory = .ok p.here)
    (noDirectory : t.lookup (p.here ++ [name]) ≠ some .directory) (room : t'.room = t.room)
    (drafts : t'.drafts = t.drafts)
    (others : ∀ m, m ≠ p.here ++ [name] → t'.lookup m = t.lookup m) : Edits p t t' := by
  refine ⟨room, fun none => drafts.trans none, (stays_of_lookup noDirectory others).enter entered,
    fun m other => others m ?_⟩
  rintro rfl
  exact other (p.owns own)

/-- Trees that agree do so after changes of what stands at a name, if that is no directory, by which
the same comes to stand there. -/
theorem Agree.of_change (agree : Agree p t u) (own : p.names name)
    (noDirectory : t.lookup (p.here ++ [name]) ≠ some .directory) (room : u'.room = t'.room)
    (drafts : u'.drafts = t'.drafts)
    (others : ∀ m, m ≠ p.here ++ [name] → t'.lookup m = t.lookup m)
    (others' : ∀ m, m ≠ p.here ++ [name] → u'.lookup m = u.lookup m)
    (same : u'.lookup (p.here ++ [name]) = t'.lookup (p.here ++ [name])) : Agree p t' u' := by
  have noDirectory' : u.lookup (p.here ++ [name]) ≠ some .directory := by
    rw [agree.lookup _ (p.owns own)]
    exact noDirectory
  refine ⟨room, drafts, (stays_of_lookup noDirectory others).enter agree.entered,
    (stays_of_lookup noDirectory' others').enter agree.entered', fun m owned => ?_⟩
  by_cases here : m = p.here ++ [name]
  · rw [here, same]
  · rw [others m here, others' m here, agree.lookup m owned]

end Changing

/-! ## Putting files in place -/

section Placing

variable {path name : String} {l : Location}

/-- Putting a file in place edits its name. -/
theorem edits_place (leads : Leads path p.directory name) (own : p.names name)
    (entered : t.enter p.directory = .ok p.here) (takes : t.Takes path l)
    (contents : ByteArray) : Edits p t (t.place l (.file contents)) := by
  obtain rfl := leads.takes_at entered takes
  exact .of_change own entered takes.free rfl rfl fun _ => lookup_place_of_ne

/-- Trees in which a file is put in place stay in agreement. -/
theorem Agree.place (agree : Agree p t u) (leads : Leads path p.directory name)
    (own : p.names name) (takes : t.Takes path l) (contents : ByteArray) :
    Agree p (t.place l (.file contents)) (u.place l (.file contents)) := by
  have free := free_of_lookup_ne takes.free
  obtain rfl := leads.takes_at agree.entered takes
  refine agree.of_change own takes.free agree.room agree.drafts (fun _ => lookup_place_of_ne)
    (fun _ => lookup_place_of_ne) ?_
  rw [lookup_place_self free, lookup_place_self free]

/-- Writing a file edits its name. -/
theorem edits_write (leads : Leads path p.directory name) (own : p.names name)
    (entered : t.enter p.directory = .ok p.here) (contents : ByteArray) :
    Edits p t (t.write path contents).2 := by
  unfold write
  split
  · exact .refl entered
  · next l writable =>
    have takes := takes_of_writable writable
    rcases t.fill_cases l contents with ⟨filled, _⟩ | ⟨fault, n, filled⟩
    · rw [filled]
      exact edits_place leads own entered takes contents
    · rw [filled]
      exact edits_place leads own entered takes _

/-- As much of a file is put in place in trees that agree. -/
theorem Agree.fill (agree : Agree p t u) (leads : Leads path p.directory name)
    (own : p.names name) (takes : t.Takes path l) (contents : ByteArray) :
    (u.fill l contents).1 = (t.fill l contents).1 ∧
      Agree p (t.fill l contents).2 (u.fill l contents).2 := by
  unfold Files.fill
  rw [agree.room]
  split
  · exact ⟨rfl, agree.place leads own takes _⟩
  · exact ⟨rfl, agree.place leads own takes _⟩

/-- A file is written alike in trees that agree. -/
theorem Agree.write (agree : Agree p t u) (leads : Leads path p.directory name)
    (own : p.names name) (contents : ByteArray) :
    (u.write path contents).1 = (t.write path contents).1 ∧
      Agree p (t.write path contents).2 (u.write path contents).2 := by
  unfold Files.write
  rw [agree.writable leads own]
  split
  · exact ⟨rfl, agree⟩
  · next l writable => exact agree.fill leads own (takes_of_writable writable) contents

/-- Copying a file edits the name of the copy. -/
theorem edits_copy (leads : Leads path p.directory name) (own : p.names name)
    (entered : t.enter p.directory = .ok p.here) (source : String) :
    Edits p t (t.copy source path).2 := by
  unfold copy
  split
  · exact .refl entered
  · exact .refl entered
  · next origin contents _ =>
    split
    · exact .refl entered
    · next l writable =>
      have takes := takes_of_writable writable
      rcases t.fill_cases l (if origin = l then .empty else contents) with
        ⟨filled, _⟩ | ⟨fault, n, filled⟩
      · rw [filled]
        exact edits_place leads own entered takes _
      · rw [filled]
        exact edits_place leads own entered takes _

/-- A file is copied alike in trees that agree. -/
theorem Agree.copy {source first : String} (agree : Agree p t u)
    (leads : Leads source p.directory first) (own : p.names first)
    (leads' : Leads path p.directory name) (own' : p.names name) :
    (u.copy source path).1 = (t.copy source path).1 ∧
      Agree p (t.copy source path).2 (u.copy source path).2 := by
  unfold Files.copy
  rw [agree.locate leads own, agree.writable leads' own']
  split
  · exact ⟨rfl, agree⟩
  · exact ⟨rfl, agree⟩
  · split
    · exact ⟨rfl, agree⟩
    · next l writable => exact agree.fill leads' own' (takes_of_writable writable) _

end Placing

/-! ## Deleting -/

section Deleting

variable {path name : String}

/-- Deleting a file edits its name. -/
theorem edits_removeFile (leads : Leads path p.directory name) (own : p.names name)
    (entered : t.enter p.directory = .ok p.here) (removed : t.removeFile path = .ok u) :
    Edits p t u := by
  unfold removeFile at removed
  split at removed
  · contradiction
  · contradiction
  · next l contents located =>
    obtain rfl := Except.ok.inj removed
    have takes := (locate_eq_file_iff.1 located).1
    obtain rfl := leads.takes_at entered takes
    exact .of_change own entered takes.free rfl rfl fun _ => lookup_clear_of_ne

/-- A file is deleted in both of two trees that agree or in neither. -/
theorem Agree.removeFile (agree : Agree p t u) (leads : Leads path p.directory name)
    (own : p.names name) :
    (∃ fault, t.removeFile path = .error fault ∧ u.removeFile path = .error fault) ∨
      ∃ t' u', t.removeFile path = .ok t' ∧ u.removeFile path = .ok u' ∧ Agree p t' u' := by
  unfold Files.removeFile
  rw [agree.locate leads own]
  split
  · exact .inl ⟨_, rfl, rfl⟩
  · exact .inl ⟨_, rfl, rfl⟩
  · next l contents located =>
    refine .inr ⟨_, _, rfl, rfl, ?_⟩
    have takes := (locate_eq_file_iff.1 located).1
    have free := free_of_lookup_ne takes.free
    obtain rfl := leads.takes_at agree.entered takes
    refine agree.of_change own takes.free agree.room agree.drafts (fun _ => lookup_clear_of_ne)
      (fun _ => lookup_clear_of_ne) ?_
    rw [lookup_clear_self free, lookup_clear_self free]

end Deleting

/-! ## Moving -/

/-- A step leads to no name that its piece does not spell. -/
theorem not_mem_of_advance {l m : Location} {piece : Path.Piece} {name : String}
    (stepped : t.advance l piece = .ok m) (off : name.toList ≠ piece) (before : name ∉ l) :
    name ∉ m := by
  rcases advance_eq_ok.1 stepped with ⟨_, rfl⟩ | ⟨_, _, rfl⟩ | ⟨_, _, _, _, rfl⟩
  · exact before
  · exact fun among => before (List.dropLast_subset l among)
  · simp only [List.mem_append, List.mem_singleton, not_or]
    refine ⟨before, fun same => off ?_⟩
    rw [same, String.toList_ofList]

/-- A path that does not go through a name leads where it led if all directories stay that are not
under that name. -/
theorem enter_of_off {path name : String} {l : Location} (isName : Path.IsName name)
    (off : name.toList ∉ Path.pieces path.toList)
    (kept : ∀ m, t.IsOpen m → name ∉ m → u.lookup m = some .directory)
    (entered : t.enter path = .ok l) : u.enter path = .ok l := by
  have walks (pieces : List Path.Piece) (off : name.toList ∉ pieces) : ∀ {a b : Location},
      t.IsOpen a → name ∉ a → pieces.foldlM t.advance a = .ok b →
        pieces.foldlM u.advance a = .ok b := by
    induction pieces with
    | nil => exact fun _ _ walked => walked
    | cons piece rest ih =>
      simp only [List.mem_cons, not_or] at off
      intro a b isOpen before walked
      rw [List.foldlM_cons] at walked ⊢
      cases stepped : t.advance a piece with
      | error fault => simp [stepped, bind, Except.bind] at walked
      | ok next =>
        have isOpen' := isOpen.advance stepped
        have before' := not_mem_of_advance stepped off.1 before
        rw [stepped] at walked
        rw [advance_of_lookup stepped (kept next isOpen' before')]
        exact ih off.2 isOpen' before' walked
  have first : name ∉ origin path := by
    unfold origin
    split
    · simp
    · simp only [start, List.mem_singleton]
      rintro rfl
      exact isName.ne_nil rfl
  rw [enter, walk_eq (isTrail_originTrail t path), location_originTrail] at entered
  rw [enter, walk_eq (isTrail_originTrail u path), location_originTrail]
  exact walks _ off (isOpen_origin t path) first entered

section Moving

variable {first second : String}

/-- Where something is moved between two names of a directory, of which the path to it does not
spell the first, that directory is still there. -/
theorem enter_moved {entry : Entry} (entered : t.enter p.directory = .ok p.here)
    (isName : Path.IsName first) (isName' : Path.IsName second) (differ : first ≠ second)
    (off : first.toList ∉ Path.pieces p.directory.toList)
    (there : t.lookup (p.here ++ [first]) = some entry)
    (fits : t.unfitEntry? p.here (p.here ++ [first]) false (p.here ++ [second]) entry = none) :
    (t.moved (p.here ++ [first]) (p.here ++ [second])).enter p.directory = .ok p.here := by
  refine enter_of_off isName off (fun m isOpen outside => ?_) entered
  have notFrom : ¬ p.here ++ [first] <+: m := fun below =>
    outside (below.subset (by simp))
  by_cases into : p.here ++ [second] <+: m
  · obtain ⟨rest, rfl⟩ := into
    have stood := isOpen _ (List.prefix_append _ _)
    cases entry with
    | file contents => exact absurd stood (unfit?_eq_none fits).2
    | directory =>
      -- A directory is replaced only if nothing is in it, so no walk goes further.
      have apart : p.here ++ [first] ≠ p.here ++ [second] := by simpa using differ
      have bare : t.hasBelow (p.here ++ [second]) = false := by
        unfold unfitEntry? at fits
        simp only [unfitDirectory?, stood] at fits
        split at fits
        · contradiction
        · simpa [apart] using fits
      have free := free_of_isName isName' p.here
      have free' := free_of_isName isName p.here
      cases rest with
      | nil => rw [lookup_moved_below_target t free free', List.append_nil, there]
      | cons name rest =>
        have further := isOpen (p.here ++ [second] ++ [name])
          ⟨rest, by simp⟩
        rw [lookup, free_append free] at further
        simp only [Bool.false_eq_true, if_false, Directory.get?_append_singleton] at further
        simp only [hasBelow, Bool.or_eq_false_iff, Bool.not_eq_false'] at bare
        rw [Directory.isVacant_iff.1 bare.1 name] at further
        contradiction
  · rw [lookup_moved_of_apart t notFrom into]
    exact isOpen m (List.prefix_refl m)

/-- Whether an entry fits is the same in trees that agree. -/
theorem Agree.fits (agree : Agree p t u) (own : p.names second)
    (isName : Path.IsName second) (source : Location) (entry : Entry) :
    u.unfitEntry? p.here source false (p.here ++ [second]) entry =
      t.unfitEntry? p.here source false (p.here ++ [second]) entry := by
  have free := free_of_isName isName p.here
  have below : u.hasBelow (p.here ++ [second]) = t.hasBelow (p.here ++ [second]) :=
    hasBelow_congr free agree.drafts fun name => agree.lookup _ (p.owns_below own [name])
  have there := agree.lookup _ (p.owns own)
  unfold unfitEntry?
  cases entry with
  | file contents => simp only [unfit?, there]
  | directory => simp only [unfitDirectory?, there, below]

/-- What stands at and below two names after something was moved from the one to the other, in
trees that agree. -/
theorem Agree.lookup_moved (agree : Agree p t u) (own : p.names first)
    (isName : Path.IsName first) (isName' : Path.IsName second)
    {m : Location} (owned : p.Owns m) :
    (u.moved (p.here ++ [first]) (p.here ++ [second])).lookup m =
      (t.moved (p.here ++ [first]) (p.here ++ [second])).lookup m := by
  have free := free_of_isName isName p.here
  have free' := free_of_isName isName' p.here
  by_cases into : p.here ++ [second] <+: m
  · obtain ⟨rest, rfl⟩ := into
    rw [lookup_moved_below_target u free' free, lookup_moved_below_target t free' free,
      agree.lookup _ (p.owns_below own rest)]
  · by_cases away : p.here ++ [first] <+: m
    · obtain ⟨rest, rfl⟩ := away
      rw [lookup_moved_below_source u free rest into, lookup_moved_below_source t free rest into]
    · rw [lookup_moved_of_apart u away into, lookup_moved_of_apart t away into,
        agree.lookup m owned]

variable {path target : String}

/-- Moving to another name of the directory fails in both of two trees that agree, or it moves what
is there in both. -/
theorem Agree.rename_cases (agree : Agree p t u) (leads : Leads path p.directory first)
    (leads' : Leads target p.directory second) (own : p.names first) (own' : p.names second)
    (isName : Path.IsName second) (differ : first ≠ second) :
    (∃ fault, t.rename path target = .error fault ∧ u.rename path target = .error fault) ∨
      ∃ entry, t.lookup (p.here ++ [first]) = some entry ∧
        t.unfitEntry? p.here (p.here ++ [first]) false (p.here ++ [second]) entry = none ∧
        t.rename path target = .ok (t.moved (p.here ++ [first]) (p.here ++ [second])) ∧
        u.rename path target = .ok (u.moved (p.here ++ [first]) (p.here ++ [second])) := by
  have apart : p.here ++ [first] ≠ p.here ++ [second] := by simpa using differ
  unfold Files.rename
  rcases agree.spot_cases leads with ⟨fault, failed, failed'⟩ | ⟨spotted, spotted'⟩
  · rw [failed, failed']
    exact .inl ⟨fault, rfl, rfl⟩
  · rcases agree.spot_cases leads' with ⟨fault, failed, failed'⟩ | ⟨into, into'⟩
    · rw [spotted, spotted', failed, failed']
      exact .inl ⟨fault, rfl, rfl⟩
    · simp only [spotted, spotted', into, into', bind, Except.bind, agree.entryAt own]
      cases entry : t.entryAt (.named p.here first false) with
      | error fault => exact .inl ⟨fault, rfl, rfl⟩
      | ok pair =>
        obtain ⟨l, e⟩ := pair
        obtain ⟨rfl, _, there⟩ := entryAt_named entry
        simp only [if_neg apart, agree.fits own' isName]
        split
        · exact .inl ⟨_, rfl, rfl⟩
        · split
          · exact .inl ⟨_, rfl, rfl⟩
          · next fits => exact .inr ⟨e, there, fits, rfl, rfl⟩

/-- Moving to another name edits both, if the path to the directory does not go through the
first. -/
theorem edits_rename (leads : Leads path p.directory first)
    (leads' : Leads target p.directory second) (own : p.names first) (own' : p.names second)
    (isName : Path.IsName first) (isName' : Path.IsName second) (differ : first ≠ second)
    (off : first.toList ∉ Path.pieces p.directory.toList)
    (entered : t.enter p.directory = .ok p.here) (renamed : t.rename path target = .ok u) :
    Edits p t u := by
  have itself : Agree p t t := .refl entered
  rcases itself.rename_cases leads leads' own own' isName' differ with
    ⟨fault, failed, _⟩ | ⟨entry, there, fits, moves, _⟩
  · rw [failed] at renamed
    contradiction
  · rw [moves] at renamed
    obtain rfl := Except.ok.inj renamed
    refine ⟨rfl, fun none => by simp [moved, none],
      enter_moved entered isName isName' differ off there fits, fun m other => ?_⟩
    exact lookup_moved_of_apart t (fun below => other ⟨first, own, below⟩)
      fun below => other ⟨second, own', below⟩

/-- Something is moved in both of two trees that agree or in neither. -/
theorem Agree.rename (agree : Agree p t u) (leads : Leads path p.directory first)
    (leads' : Leads target p.directory second) (own : p.names first) (own' : p.names second)
    (isName : Path.IsName first) (isName' : Path.IsName second) (differ : first ≠ second)
    (off : first.toList ∉ Path.pieces p.directory.toList) :
    (∃ fault, t.rename path target = .error fault ∧ u.rename path target = .error fault) ∨
      ∃ t' u', t.rename path target = .ok t' ∧ u.rename path target = .ok u' ∧
        Agree p t' u' := by
  refine (agree.rename_cases leads leads' own own' isName' differ).imp_right ?_
  rintro ⟨entry, there, fits, moves, moves'⟩
  have there' : u.lookup (p.here ++ [first]) = some entry :=
    (agree.lookup _ (p.owns own)).trans there
  have fits' := (agree.fits own' isName' (p.here ++ [first]) entry).trans fits
  refine ⟨_, _, moves, moves', agree.room, ?_,
    enter_moved agree.entered isName isName' differ off there fits,
    enter_moved agree.entered' isName isName' differ off there' fits',
    fun m owned => agree.lookup_moved own isName isName' owned⟩
  simp only [moved, agree.drafts]

end Moving

/-! ## Drafts -/

section Drafts

variable {directory name : String}

/-- A draft is in the directory that it was begun in. -/
theorem directory_of_beginDraft {d : Draft} (begun : t.beginDraft directory name = .ok (d, u)) :
    d.directory = directory := by
  unfold beginDraft at begun
  simp only at begun
  split at begun
  · contradiction
  · split at begun
    · contradiction
    · split at begun
      · contradiction
      · split at begun
        · contradiction
        · rw [← (Prod.mk.inj (Except.ok.inj begun)).1]

/-- A draft beside the names of a scope is begun in both of two trees that agree or in neither. -/
theorem Agree.beginDraft (agree : Agree p t u) (name : String)
    (beside : ∀ v : Files, v.enter directory = v.enter p.directory) :
    (∃ fault, t.beginDraft directory name = .error fault ∧
        u.beginDraft directory name = .error fault) ∨
      ∃ d t' u', t.beginDraft directory name = .ok (d, t') ∧
        u.beginDraft directory name = .ok (d, u') ∧ Agree p t' u' := by
  have fresh : u.freshNumber = t.freshNumber := by rw [freshNumber, agree.drafts, freshNumber]
  simp only [Files.beginDraft, beside, agree.entered, agree.entered', fresh]
  split
  · exact .inl ⟨_, rfl, rfl⟩
  · split
    · exact .inl ⟨_, rfl, rfl⟩
    · split
      · exact .inl ⟨_, rfl, rfl⟩
      · exact .inr ⟨_, _, _, rfl, rfl, agree.room, congrArg (_ :: ·) agree.drafts, agree.entered,
          agree.entered', agree.lookup⟩

/-- Trees that agree do so without a draft. -/
theorem Agree.withoutDraft (agree : Agree p t u) (d : Draft) :
    Agree p (t.withoutDraft d) (u.withoutDraft d) :=
  ⟨agree.room, congrArg (List.filter _) agree.drafts, agree.entered, agree.entered', agree.lookup⟩

/-- A draft is dropped alike in trees that agree. -/
theorem Agree.dropDraft (agree : Agree p t u) {d : Draft}
    (beside : ∀ v : Files, v.enter d.directory = v.enter p.directory) :
    Agree p (t.dropDraft d) (u.dropDraft d) := by
  unfold Files.dropDraft
  rw [agree.drafts, beside, beside, agree.entered, agree.entered']
  split
  · split
    · exact agree.withoutDraft d
    · exact agree
  · exact agree
  · exact agree.withoutDraft d

/-- A draft is put in place at a name in both of two trees that agree or in neither. -/
theorem Agree.commitDraft {target : String} (agree : Agree p t u) {d : Draft}
    (beside : ∀ v : Files, v.enter d.directory = v.enter p.directory)
    (leads : Leads target p.directory name) (own : p.names name) (contents : ByteArray) :
    (∃ fault, t.commitDraft d target contents = .error fault ∧
        u.commitDraft d target contents = .error fault) ∨
      ∃ t' u', t.commitDraft d target contents = .ok t' ∧
        u.commitDraft d target contents = .ok u' ∧ Agree p t' u' := by
  unfold Files.commitDraft
  split
  · exact .inl ⟨_, rfl, rfl⟩
  · rw [beside, beside, agree.entered, agree.entered']
    rcases agree.spot_cases leads with ⟨fault, failed, failed'⟩ | ⟨spotted, spotted'⟩
    · rw [failed, failed']
      exact .inl ⟨fault, rfl, rfl⟩
    · have there := agree.lookup _ (p.owns own)
      simp only [spotted, spotted', bind, Except.bind, agree.drafts, Files.unfit?, there]
      split
      · exact .inl ⟨_, rfl, rfl⟩
      · split
        · exact .inl ⟨_, rfl, rfl⟩
        · next short =>
          split
          · exact .inl ⟨_, rfl, rfl⟩
          · next fits =>
            have noDirectory := (unfit?_eq_none fits).2
            have takes : (t.withoutDraft d).Takes target (p.here ++ [name]) :=
              ⟨⟨p.here, name, spotted, by simpa using short, rfl⟩, noDirectory⟩
            exact .inr ⟨_, _, rfl, rfl, (agree.withoutDraft d).place leads own takes contents⟩

end Drafts

/-! ## Confined actions -/

/-- An action on files that changes nothing outside of a scope and depends on nothing outside of
it. -/
structure Confined (p : Scope) {β : Type} (act : Files → β × Files) : Prop where
  /-- It changes nothing outside of the scope. -/
  edits : ∀ t, t.enter p.directory = .ok p.here → Edits p t (act t).2
  /-- It comes to the same where the scope is the same. -/
  same : ∀ {t u}, Agree p t u → (act u).1 = (act t).1 ∧ Agree p (act t).2 (act u).2

namespace Confined

variable {β γ : Type} {act : Files → β × Files}

/-- Doing nothing is confined. -/
theorem done (b : β) : Confined p fun t => (b, t) :=
  ⟨fun _ entered => .refl entered, fun agree => ⟨rfl, agree⟩⟩

/-- What comes to a confined action and then confined ones is confined. -/
theorem bind (first : Confined p act) {k : β → Files → γ × Files}
    (then' : ∀ b, Confined p (k b)) {whole : Files → γ × Files}
    (comes : ∀ t, whole t = k (act t).1 (act t).2) : Confined p whole := by
  refine ⟨fun t entered => ?_, fun {t u} agree => ?_⟩
  · have edits := first.edits t entered
    rw [comes]
    exact edits.trans ((then' _).edits _ edits.entered)
  · obtain ⟨result, after⟩ := first.same agree
    rw [comes, comes, result]
    exact (then' _).same after

/-- An action and another one after it are confined if both are. -/
theorem attempt {α : Type} {e : FileFault → Error} {act : Files → Except FileFault Unit × Files}
    (first : Confined p act) {next : Files → Except Error α × Files} (then' : Confined p next) :
    Confined p (Files.attempt e act next) := by
  refine first.bind (k := fun answer t =>
    match answer with
    | .error fault => (.error (e fault), t)
    | .ok () => next t) (fun answer => ?_) fun t => ?_
  · cases answer with
    | error fault => exact .done _
    | ok _ => exact then'
  · unfold Files.attempt
    split
    · next failed => rw [failed]
    · next succeeded => rw [succeeded]

/-- What is seen in the scope is confined. -/
theorem look {r : Files → β} (sees : ∀ {t u}, Agree p t u → r u = r t) :
    Confined p fun t => (r t, t) :=
  ⟨fun _ entered => .refl entered, fun agree => ⟨sees agree, agree⟩⟩

variable {path target name other : String}

/-- Writing a file is confined to its name. -/
theorem write (leads : Leads path p.directory name) (own : p.names name) (contents : ByteArray) :
    Confined p fun t => t.write path contents :=
  ⟨fun _ entered => edits_write leads own entered contents,
    fun agree => agree.write leads own contents⟩

/-- Copying a file is confined to its name and that of the copy. -/
theorem copy (leads : Leads path p.directory name) (own : p.names name)
    (leads' : Leads target p.directory other) (own' : p.names other) :
    Confined p fun t => t.copy path target :=
  ⟨fun _ entered => edits_copy leads' own' entered path,
    fun agree => agree.copy leads own leads' own'⟩

/-- Moving something is confined to its name and the one that it is moved to. -/
theorem rename (leads : Leads path p.directory name) (leads' : Leads target p.directory other)
    (own : p.names name) (own' : p.names other) (isName : Path.IsName name)
    (isName' : Path.IsName other) (differ : name ≠ other)
    (off : name.toList ∉ Path.pieces p.directory.toList) :
    Confined p fun t => t.orAsBefore (t.rename path target) := by
  refine ⟨fun t entered => ?_, fun {t u} agree => ?_⟩
  · cases renamed : t.rename path target with
    | error fault => exact .refl entered
    | ok u => exact edits_rename leads leads' own own' isName isName' differ off entered renamed
  · rcases agree.rename leads leads' own own' isName isName' differ off with
      ⟨fault, failed, failed'⟩ | ⟨t', u', moved, moved', after⟩
    · rw [failed, failed']
      exact ⟨rfl, agree⟩
    · rw [moved, moved']
      exact ⟨rfl, after⟩

/-- Deleting a file is confined to its name. -/
theorem removeFile (leads : Leads path p.directory name) (own : p.names name) :
    Confined p fun t => t.orAsBefore (t.removeFile path) := by
  refine ⟨fun t entered => ?_, fun {t u} agree => ?_⟩
  · cases removed : t.removeFile path with
    | error fault => exact .refl entered
    | ok u => exact edits_removeFile leads own entered removed
  · rcases agree.removeFile leads own with
      ⟨fault, failed, failed'⟩ | ⟨t', u', removed, removed', after⟩
    · rw [failed, failed']
      exact ⟨rfl, agree⟩
    · rw [removed, removed']
      exact ⟨rfl, after⟩

end Confined

end Files

end SeenStates
