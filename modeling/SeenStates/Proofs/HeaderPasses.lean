import SeenStates.Checkpoint.Header

/-!
# The two passes over a header

A text is read as a header in two passes: the first one reads its format, the second one all of it.
What both of them read is an object, since an array has as many elements as one pass asks for or as
the other one does (`isObject_of_passes`), and they see the same format in it, whose fields are the
first of all fields (`format_of_ofJson?`).
-/
namespace SeenStates

variable {w : Width}

/-! ## Records -/

/-- What the front of a list gives are the first of the values that the list gives. -/
theorem mapM_front {α β : Type} {f : α → Option β} {front rest : List α} {values : List β}
    (all : (front ++ rest).mapM f = some values) :
    front.mapM f = some (values.take front.length) := by
  induction front generalizing values with
  | nil => rfl
  | cons a front ih =>
    rw [List.cons_append, List.mapM_cons] at all
    simp only [Option.bind_eq_bind, Option.bind_eq_some_iff, Option.pure_def,
      Option.some.injEq] at all
    obtain ⟨b, first, bs, others, rfl⟩ := all
    rw [List.mapM_cons, first, ih others]
    rfl

namespace Json

/-- A number that is read below a limit is below it. -/
theorem lt_of_natBelow? {limit n : Nat} {v : Json} (read : v.natBelow? limit = some n) :
    n < limit := by
  cases v with
  | number literal =>
    simp only [natBelow?, Number.natBelow?] at read
    split at read
    · contradiction
    · split at read
      · next below => exact Option.some.inj read ▸ below
      · contradiction
  | _ => contradiction

/-- An object that is a record of some fields is one of the first of them. -/
theorem record?_front {members : List (Option String × Json)} {names more : List String}
    {fields : List (Option Json)}
    (record : (object members).record? (names ++ more) = some fields) :
    (object members).record? names = some (fields.take names.length) := by
  simp only [record?] at record ⊢
  split at record
  · next spelled =>
    rw [if_pos spelled]
    exact mapM_front record
  · contradiction

/-- An array that is a record has no more elements than that has fields, and as many if no field is
absent. -/
theorem length_of_record? {elements : List Json} {names : List String}
    {fields : List (Option Json)} (record : (array elements).record? names = some fields) :
    elements.length ≤ names.length ∧ (none ∉ fields → elements.length = names.length) := by
  simp only [record?] at record
  split at record
  · next few =>
    refine ⟨few, fun full => ?_⟩
    obtain rfl := Option.some.inj record
    have behind : names.length - elements.length = 0 := by
      refine Decidable.byContradiction fun short => ?_
      exact full (List.mem_append_right _ (List.mem_replicate.2 ⟨short, rfl⟩))
    omega
  · contradiction

end Json

/-! ## Headers -/

namespace CheckpointHeader

variable {h : CheckpointHeader w} {v : Json}

/-- The fields that a header is read from. -/
structure Fields (v : Json) (h : CheckpointHeader w) : Prop where
  /-- All of them are there, and those of the format are those of the header. -/
  format : ∃ version widthBits family count blockEntries index,
    v.record? fieldNames = some [some version, some widthBits, some family, some count,
      some blockEntries, some index] ∧
    format? version widthBits family = some ⟨h.version, h.widthBits, h.family⟩
  /-- The count of entries is in range. -/
  count : h.count < countLimit
  /-- The entries of a block are in range. -/
  blockEntries : h.blockEntries < smallLimit

/-- A header that is read is read from fields. -/
theorem fields_of_ofJson? (read : ofJson? w v = some h) : Fields v h := by
  unfold ofJson? at read
  cases record : v.record? fieldNames with
  | none => simp [record] at read
  | some fields =>
    rw [record, Option.bind_eq_bind, Option.bind_some] at read
    split at read
    · next version widthBits family count blockEntries index =>
      simp only [Option.bind_eq_bind, Option.bind_eq_some_iff, Option.pure_def,
        Option.some.injEq] at read
      obtain ⟨format, formatted, n, counted, m, block, elements, _, fps, _, rfl⟩ := read
      exact ⟨⟨version, widthBits, family, count, blockEntries, index, record, formatted⟩,
        Json.lt_of_natBelow? counted, Json.lt_of_natBelow? block⟩
    · contradiction

/-- The first pass over an object sees what the second one does. -/
theorem format_of_ofJson? {members : List (Option String × Json)}
    (read : ofJson? w (.object members) = some h) :
    Format.ofJson? (.object members) = some ⟨h.version, h.widthBits, h.family⟩ := by
  obtain ⟨version, widthBits, family, count, blockEntries, index, record, format⟩ :=
    (fields_of_ofJson? read).format
  have front : (Json.object members).record? formatNames =
      some [some version, some widthBits, some family] := Json.record?_front record
  rw [Format.ofJson?, front]
  exact format

/-- What both passes read is an object. -/
theorem isObject_of_passes {format : Format} (first : Format.ofJson? v = some format)
    (second : ofJson? w v = some h) : ∃ members, v = .object members := by
  cases v with
  | object members => exact ⟨members, rfl⟩
  | array elements =>
    -- the first pass takes no more than three elements, and the second one no fewer than six
    obtain ⟨_, _, _, _, _, _, all, _⟩ := (fields_of_ofJson? second).format
    have six := (Json.length_of_record? all).2 (by simp)
    cases front : (Json.array elements).record? formatNames with
    | none =>
      rw [Format.ofJson?, front] at first
      contradiction
    | some fields =>
      have three := (Json.length_of_record? front).1
      rw [six] at three
      contradiction
  | _ => contradiction

end CheckpointHeader

end SeenStates
