import SeenStates.Proofs.Calls
import SeenStates.Proofs.CheckpointFiles

/-!
# Headers in files

A header that is written to the file of a header is read from there as it was, and a header that is
read from any file is one that both passes over its text see in the same object.
-/
namespace SeenStates

/-- For every width and every hash family, a header of any counts in range and any index, whose text
is written to the file of a header, is read from there as it was; and what is read from any file is
a header of the current version, that width and that hash family, which both passes over the text of
the file see in the same object. -/
theorem SetPaths.headers_read_back (p : SetPaths) (w : Width) (family : Family) :
    (∀ count < countLimit, ∀ blockEntries < smallLimit, ∀ index : List (Fingerprint w),
        let h : CheckpointHeader w :=
          ⟨CheckpointHeader.currentVersion, w.bits, family, count, blockEntries, index⟩
        ∀ t u : Files, t.write p.header h.text.toUTF8 = (.ok (), u) →
          p.readHeader w family u = .ok h) ∧
      ∀ t (h : CheckpointHeader w), p.readHeader w family t = .ok h →
        h.Readable family ∧ ∃ s members, t.readText p.header = .ok s ∧
          Json.parse? s = some (.object members) ∧
          CheckpointHeader.Format.ofJson? (.object members) =
            some ⟨h.version, h.widthBits, h.family⟩ ∧
          CheckpointHeader.ofJson? w (.object members) = some h := by
  constructor
  · intro count counted blockEntries few index h t u written
    have readable : h.Readable family := ⟨rfl, rfl, rfl, counted, few⟩
    obtain ⟨l, located⟩ := Files.locate_write written
    have text := Files.readText_of_find (Files.find_of_locate located)
    simp only [readHeader, text, CheckpointHeader.read_text readable]
  · intro t h read
    obtain ⟨_, s, _, text, read⟩ := readHeader_eq_ok read
    obtain ⟨readable, members, parsed, second⟩ := CheckpointHeader.read_eq_ok_iff.1 read
    exact ⟨readable, s, members, text, parsed, CheckpointHeader.format_of_ofJson? second, second⟩

/-- A header with the greatest counts, and the least and the greatest fingerprint in its index. -/
def extremeHeader (w : Width) : CheckpointHeader w where
  version := CheckpointHeader.currentVersion
  widthBits := w.bits
  family := sampleConfig.family
  count := countLimit - 1
  blockEntries := smallLimit - 1
  index := [.ofNat w 0, .ofNat w (Nat.pow 2 w.bits - 1)]

/-- The files after the header was written. -/
def extremeFiles (w : Width) : Files :=
  (sampleHost.files.write sampleConfig.paths.header (extremeHeader w).text.toUTF8).2

/-- The header can be written for both widths. -/
theorem extremeFiles_written (w : Width) :
    sampleHost.files.write sampleConfig.paths.header (extremeHeader w).text.toUTF8 =
      (.ok (), extremeFiles w) := by
  have written : (sampleHost.files.write sampleConfig.paths.header
      (extremeHeader w).text.toUTF8).1 = .ok () := by
    cases w <;> decide +kernel
  rw [extremeFiles, ← written]

/-- The header is read back for both widths, and both passes see it. -/
theorem headers_read_back_extreme :
    sampleConfig.paths.readHeader .bits64 sampleConfig.family (extremeFiles .bits64) =
        .ok (extremeHeader .bits64) ∧
      sampleConfig.paths.readHeader .bits128 sampleConfig.family (extremeFiles .bits128) =
        .ok (extremeHeader .bits128) ∧
      ∃ members, CheckpointHeader.Format.ofJson? (.object members) =
          some ⟨1, 128, sampleConfig.family⟩ ∧
        CheckpointHeader.ofJson? .bits128 (.object members) = some (extremeHeader .bits128) := by
  have back (w : Width) : sampleConfig.paths.readHeader w sampleConfig.family (extremeFiles w) =
      .ok (extremeHeader w) :=
    (SetPaths.headers_read_back sampleConfig.paths w sampleConfig.family).1 _ (by decide) _
      (by decide) _ _ _ (extremeFiles_written w)
  obtain ⟨_, s, members, _, _, first, second⟩ :=
    (SetPaths.headers_read_back sampleConfig.paths .bits128 sampleConfig.family).2 _ _ (back _)
  exact ⟨back _, back _, members, first, second⟩

end SeenStates
