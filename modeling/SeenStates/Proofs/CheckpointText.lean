import SeenStates.Proofs.HeaderPasses
import SeenStates.Proofs.JsonText

/-!
# Reading checkpoint headers back

A header that is read is of the current version, of the width and the hash family that it is read
for, and its counts are in range (`read_eq_ok_iff`). The text of every such header is read as that
header (`read_text`), whatever entries its index holds.
-/
namespace SeenStates

variable {w : Width}

/-! ## Parts of a header -/

/-- A natural number can be read back. -/
theorem Json.spelled_nat (n : Nat) : Spelled (.nat n) := by
  rw [Json.nat, Spelled]
  exact literal_ofNat n

/-- Members whose keys are texts can be read back when their values can. -/
theorem Json.spelledMembers_cons {key : String} {v : Json} {rest : List (Option String × Json)}
    (value : Spelled v) (members : SpelledMembers rest) :
    SpelledMembers (Json.member key v :: rest) := by
  rw [Json.member, SpelledMembers]
  exact ⟨rfl, value, members⟩

/-- No members can be read back. -/
theorem Json.spelledMembers_nil : SpelledMembers [] := by
  rw [SpelledMembers]
  trivial

/-- Elements can be read back when each of them can. -/
theorem Json.spelledElements_map {α : Type} {f : α → Json} (all : ∀ a, Spelled (f a))
    (as : List α) : SpelledElements (as.map f) := by
  induction as with
  | nil =>
    rw [List.map_nil, SpelledElements]
    trivial
  | cons a rest ih =>
    rw [List.map_cons, SpelledElements]
    exact ⟨all a, ih⟩

namespace Fingerprint

/-- A fingerprint can be read back. -/
theorem spelled_toJson (fp : Fingerprint w) : Json.Spelled fp.toJson := by
  cases w with
  | bits64 => exact Json.spelled_nat _
  | bits128 =>
    rw [toJson, Json.Spelled]
    exact Json.spelledMembers_cons (Json.spelled_nat _)
      (Json.spelledMembers_cons (Json.spelled_nat _) Json.spelledMembers_nil)

/-- The two words of a wide fingerprint make it up. -/
theorem ofNat_words (fp : Fingerprint .bits128) :
    ofNat .bits128 (fp.address * Nat.pow 2 wordBits + fp.lowWord) = fp := by
  have split : fp.address * Nat.pow 2 wordBits + fp.lowWord = fp.value := by
    have bits : Width.bits128.bits - wordBits = wordBits := by decide
    rw [address, lowWord, bits, Nat.mul_comm]
    exact Nat.div_add_mod fp.value (Nat.pow 2 wordBits)
  rw [split, ofNat_value]

/-- A fingerprint is read back. -/
theorem ofJson?_toJson (fp : Fingerprint w) : ofJson? w fp.toJson = some fp := by
  cases w with
  | bits64 =>
    have below : fp.value < countLimit := fp.isLt
    rw [toJson, ofJson?, Json.natBelow?_nat below, Option.map_some, ofNat_value]
  | bits128 =>
    have higher : (Json.nat fp.address).natBelow? countLimit = some fp.address :=
      Json.natBelow?_nat fp.address_lt
    have lower : (Json.nat fp.lowWord).natBelow? countLimit = some fp.lowWord :=
      Json.natBelow?_nat (Nat.mod_lt _ (Nat.two_pow_pos _))
    have fields : (toJson fp).record? fieldNames =
        some [some (.nat fp.address), some (.nat fp.lowWord)] := rfl
    rw [ofJson?, fields]
    simp only [Option.bind_some, ofFields?, higher, lower, Option.bind_eq_bind, Option.pure_def,
      ofNat_words]

/-- Fingerprints are read back. -/
theorem mapM_ofJson?_toJson (fps : List (Fingerprint w)) :
    (fps.map toJson).mapM (ofJson? w) = some fps := by
  induction fps with
  | nil => rfl
  | cons fp rest ih => simp [ih, ofJson?_toJson]

end Fingerprint

/-- A hash family is read back. -/
theorem Family.ofJson?_toJson (f : Family) : Family.ofJson? f.toJson = some f := by
  have below : f.val < countLimit := Nat.lt_trans f.isLt (by decide)
  rw [toJson, ofJson?, Json.natBelow?_nat below, Option.bind_some, ofNat?, dif_pos f.isLt]

/-! ## Headers -/

namespace CheckpointHeader

/-- A header that can be read for a width and a hash family: it is of the current version and of
both, and its counts are in range. -/
structure Readable (h : CheckpointHeader w) (family : Family) : Prop where
  /-- It is of the current version. -/
  version : h.version = currentVersion
  /-- It is of the width. -/
  widthBits : h.widthBits = w.bits
  /-- It is of the hash family. -/
  family : h.family = family
  /-- The count of entries is in range. -/
  count : h.count < countLimit
  /-- The entries of a block are in range. -/
  blockEntries : h.blockEntries < smallLimit

/-- A header can be read back. -/
theorem spelled_toJson (h : CheckpointHeader w) : Json.Spelled h.toJson := by
  have index : Json.Spelled (.array (h.index.map Fingerprint.toJson)) := by
    rw [Json.Spelled]
    exact Json.spelledElements_map Fingerprint.spelled_toJson h.index
  rw [toJson, Json.Spelled]
  exact Json.spelledMembers_cons (Json.spelled_nat _)
    (Json.spelledMembers_cons (Json.spelled_nat _)
      (Json.spelledMembers_cons (Json.spelled_nat _)
        (Json.spelledMembers_cons (Json.spelled_nat _)
          (Json.spelledMembers_cons (Json.spelled_nat _)
            (Json.spelledMembers_cons index Json.spelledMembers_nil)))))

/-- The text of a header is parsed as its JSON. -/
theorem parse?_text (h : CheckpointHeader w) : Json.parse? h.text = some h.toJson :=
  Json.parse?_pretty h.spelled_toJson

/-- The format of a readable header is read. -/
theorem Readable.format? {h : CheckpointHeader w} {family : Family} (readable : h.Readable family) :
    CheckpointHeader.format? (.nat h.version) (.nat h.widthBits) h.family.toJson =
      some ⟨currentVersion, w.bits, family⟩ := by
  have bits : w.bits < smallLimit := by cases w <;> decide
  have version : (Json.nat currentVersion).natBelow? smallLimit = some currentVersion :=
    Json.natBelow?_nat (by decide)
  rw [readable.version, readable.widthBits, readable.family]
  simp only [CheckpointHeader.format?, version, Json.natBelow?_nat bits, Family.ofJson?_toJson,
    Option.bind_eq_bind, Option.bind_some, Option.pure_def]

/-- A readable header is read from its JSON. -/
theorem Readable.ofJson?_toJson {h : CheckpointHeader w} {family : Family}
    (readable : h.Readable family) : ofJson? w h.toJson = some h := by
  have fields : h.toJson.record? fieldNames =
      some [some (.nat h.version), some (.nat h.widthBits), some h.family.toJson,
        some (.nat h.count), some (.nat h.blockEntries),
        some (.array (h.index.map Fingerprint.toJson))] := rfl
  rw [ofJson?, fields]
  simp only [Option.bind_eq_bind, Option.bind_some, readable.format?,
    Json.natBelow?_nat readable.count, Json.natBelow?_nat readable.blockEntries, Json.array?,
    Fingerprint.mapM_ofJson?_toJson, Option.pure_def]
  rw [← readable.version, ← readable.widthBits, ← readable.family]

/-- A text is read as a header exactly if it spells an object that the second pass reads as that
header, and the header is of the current version, the width and the hash family, with its counts in
range. -/
theorem read_eq_ok_iff {h : CheckpointHeader w} {family : Family} {s : String} :
    CheckpointHeader.read w family s = .ok h ↔ h.Readable family ∧
      ∃ members, Json.parse? s = some (.object members) ∧ ofJson? w (.object members) = some h := by
  constructor
  · intro read
    unfold CheckpointHeader.read at read
    split at read
    · contradiction
    · next format first =>
      obtain ⟨v, parsed, first⟩ := Option.bind_eq_some_iff.1 first
      have second : parse? w s = ofJson? w v := by rw [parse?, parsed, Option.bind_some]
      split at read
      · contradiction
      · next version =>
        split at read
        · contradiction
        · next widthBits =>
          split at read
          · contradiction
          · next own =>
            split at read
            · contradiction
            · next h' again =>
              obtain rfl := Except.ok.inj read
              rw [second] at again
              obtain ⟨members, rfl⟩ := isObject_of_passes first again
              have fields := fields_of_ofJson? again
              obtain rfl := Option.some.inj (first.symm.trans (format_of_ofJson? again))
              exact ⟨⟨Decidable.not_not.1 version, Decidable.not_not.1 widthBits,
                Decidable.not_not.1 own, fields.count, fields.blockEntries⟩, members, parsed,
                again⟩
  · rintro ⟨readable, members, parsed, second⟩
    have first := format_of_ofJson? second
    rw [readable.version, readable.widthBits, readable.family] at first
    simp only [CheckpointHeader.read, parse?, parsed, Option.bind_some, first, second, ne_eq,
      not_true_eq_false, if_false]

/-- The text of a readable header is read as that header. -/
theorem read_text {h : CheckpointHeader w} {family : Family} (readable : h.Readable family) :
    CheckpointHeader.read w family h.text = .ok h :=
  read_eq_ok_iff.2 ⟨readable, _, h.parse?_text, readable.ofJson?_toJson⟩

/-- The text of a readable header is read as a header only for its own width and hash family. -/
theorem eq_of_read_text {v : Width} {h : CheckpointHeader v} {own : Family}
    (readable : h.Readable own) {family : Family} {g : CheckpointHeader w}
    (read : CheckpointHeader.read w family h.text = .ok g) : v = w ∧ own = family ∧ h ≍ g := by
  obtain ⟨readable', members, parsed, second⟩ := read_eq_ok_iff.1 read
  have object : h.toJson = .object members := Option.some.inj (h.parse?_text.symm.trans parsed)
  have first := format_of_ofJson? (object ▸ readable.ofJson?_toJson)
  have formats := Option.some.inj (first.symm.trans (format_of_ofJson? second))
  have bits : v.bits = w.bits := by
    rw [← readable.widthBits, ← readable'.widthBits]
    exact congrArg Format.widthBits formats
  have families : own = family := by
    rw [← readable.family, ← readable'.family]
    exact congrArg Format.family formats
  have same : v = w := by
    revert bits
    cases v <;> cases w <;> decide
  subst same
  subst families
  rw [read_text readable] at read
  exact ⟨rfl, rfl, heq_of_eq (Except.ok.inj read)⟩

end CheckpointHeader

end SeenStates
