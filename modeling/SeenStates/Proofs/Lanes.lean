import SeenStates.Hasher

/-!
# The lanes of a hasher

A hasher of any width is one narrow hasher for each of its lanes, all of which take in the same
bytes (`lane_foldl_extend`), and what it takes in is one byte after the other: inputs of whatever
kinds count only for the bytes that they feed, in a row (`foldl_extend`). The bytes of a text are
the low bytes of its UTF-16 units, which spell the text (`Units.join?_ofString`).
-/
namespace SeenStates

/-! ## Units of texts -/

namespace Units

/-- The units of a character are 16-bit numbers. -/
theorem lt_of_mem_ofChar {c : Char} {u : Nat} (unit : u ∈ ofChar c) : u < 0x10000 := by
  have valid : c.toNat < 0xD800 ∨ 0xDFFF < c.toNat ∧ c.toNat < 0x110000 := c.valid
  unfold ofChar at unit
  split at unit
  · rw [List.mem_singleton] at unit
    omega
  · simp only [List.mem_cons, List.not_mem_nil, or_false] at unit
    omega

/-- The units of a character spell it, in front of whatever else they spell. -/
theorem join?_ofChar_append (c : Char) (units : List Nat) :
    join? (ofChar c ++ units) = (join? units).map (c :: ·) := by
  have valid : c.toNat < 0xD800 ∨ 0xDFFF < c.toNat ∧ c.toNat < 0x110000 := c.valid
  by_cases single : c.toNat < 0x10000
  · obtain ⟨notHigh, notLow⟩ := not_surrogate c
    rw [ofChar, if_pos single]
    cases units with
    | nil => simp [join?, notHigh, notLow]
    | cons u rest => simp [join?, notHigh, notLow]
  · have high : isHigh (0xD800 + (c.toNat - 0x10000) / 0x400) = true := by
      rw [isHigh, decide_eq_true_eq]
      omega
    have low : isLow (0xDC00 + (c.toNat - 0x10000) % 0x400) = true := by
      rw [isLow, decide_eq_true_eq]
      omega
    have back : pair (0xD800 + (c.toNat - 0x10000) / 0x400)
        (0xDC00 + (c.toNat - 0x10000) % 0x400) = c := by
      have number : 0x10000 + (0xD800 + (c.toNat - 0x10000) / 0x400 - 0xD800) * 0x400 +
          (0xDC00 + (c.toNat - 0x10000) % 0x400 - 0xDC00) = c.toNat := by
        omega
      rw [pair, number, Char.ofNat_toNat]
    rw [ofChar, if_neg single, List.cons_append, List.cons_append, List.nil_append, join?,
      if_pos high, if_pos low, back]

/-- The units of a text spell it. -/
theorem join?_ofString (s : String) : join? (ofString s) = some s.toList := by
  rw [ofString]
  induction s.toList with
  | nil => rfl
  | cons c rest ih => rw [List.flatMap_cons, join?_ofChar_append, ih, Option.map_some]

/-- The units of a text are 16-bit numbers. -/
theorem lt_of_mem_ofString {s : String} {u : Nat} (unit : u ∈ ofString s) : u < 0x10000 := by
  obtain ⟨c, _, unit⟩ := List.mem_flatMap.1 unit
  exact lt_of_mem_ofChar unit

/-- The units of a text behind another one come behind those of that one. -/
theorem ofString_append (s t : String) : ofString (s ++ t) = ofString s ++ ofString t := by
  rw [ofString, String.toList_append, List.flatMap_append, ofString, ofString]

end Units

namespace Hasher

variable {w : Width}

/-- Hashers of one family with the same lanes are one hasher. -/
theorem eq_of_lanes {h h' : Hasher w} (family : h.family = h'.family)
    (lanes : ∀ k (inside : k < w.words), h.lanes[k] = h'.lanes[k]) : h = h' := by
  cases h
  cases h'
  exact (mk.injEq ..).mpr ⟨family, Vector.ext lanes⟩

/-! ## Bytes one after the other -/

/-- No bytes change nothing. -/
@[simp] theorem extendBytes_nil (h : Hasher w) : h.extendBytes [] = h := by
  refine eq_of_lanes rfl fun k inside => ?_
  simp [extendBytes]

/-- Bytes are taken in where those before them ended. -/
theorem extendBytes_append (h : Hasher w) (bytes more : Bytes) :
    h.extendBytes (bytes ++ more) = (h.extendBytes bytes).extendBytes more := by
  refine eq_of_lanes rfl fun k inside => ?_
  simp [extendBytes]

/-- Inputs are taken in as the bytes that they feed. -/
theorem foldl_extend (h : Hasher w) (inputs : List Input) :
    inputs.foldl extend h = h.extendBytes (inputs.flatMap Input.toBytes) := by
  induction inputs generalizing h with
  | nil => rw [List.foldl_nil, List.flatMap_nil, extendBytes_nil]
  | cons input rest ih => rw [List.foldl_cons, ih, extend, List.flatMap_cons, extendBytes_append]

/-- Bytes are taken in one at a time. -/
theorem extendBytes_eq_foldl (h : Hasher w) (bytes : Bytes) :
    h.extendBytes bytes = (bytes.map Input.byte).foldl extend h := by
  have fed : (bytes.map Input.byte).flatMap Input.toBytes = bytes := by
    induction bytes with
    | nil => rfl
    | cons byte rest ih => rw [List.map_cons, List.flatMap_cons, ih, Input.toBytes,
        List.singleton_append]
  rw [foldl_extend, fed]

/-! ## Lanes by themselves -/

/-- The hasher of a family whose lanes all hold one value. -/
def filled (w : Width) (family : Family) (value : UInt64) : Hasher w :=
  ⟨family, Vector.replicate w.words value⟩

/-- The narrow hasher that a lane is. -/
def lane (h : Hasher w) (k : Nat) (inside : k < w.words) : Hasher .bits64 :=
  filled .bits64 (h.family.ahead k) h.lanes[k]

/-- The first lane belongs to the hasher's family. -/
theorem ahead_zero (family : Family) : family.ahead 0 = family :=
  Fin.ext (Nat.mod_eq_of_lt family.isLt)

/-- Each lane starts as a narrow hasher of its own family. -/
theorem lane_start (family : Family) {k : Nat} (inside : k < w.words) :
    (start w family).lane k inside = start .bits64 (family.ahead k) := by
  refine eq_of_lanes rfl fun i first => ?_
  obtain rfl : i = 0 := Nat.lt_one_iff.1 first
  simp [lane, filled, start, ahead_zero]

/-- A lane takes in an input as a narrow hasher does. -/
theorem lane_extend (h : Hasher w) (input : Input) {k : Nat} (inside : k < w.words) :
    (h.extend input).lane k inside = (h.lane k inside).extend input := by
  refine eq_of_lanes rfl fun i first => ?_
  obtain rfl : i = 0 := Nat.lt_one_iff.1 first
  simp [lane, filled, extend, extendBytes, ahead_zero]

/-- A lane takes in inputs as a narrow hasher does. -/
theorem lane_foldl_extend (h : Hasher w) (inputs : List Input) {k : Nat} (inside : k < w.words) :
    (inputs.foldl extend h).lane k inside = inputs.foldl extend (h.lane k inside) := by
  induction inputs generalizing h with
  | nil => rfl
  | cons input rest ih => rw [List.foldl_cons, ih, lane_extend, List.foldl_cons]

/-! ## Fingerprints -/

/-- The fingerprint of a narrow hasher is its lane. -/
theorem value_finish_filled (family : Family) (value : UInt64) :
    (filled .bits64 family value).finish.value = value.toNat := by
  have word : (filled .bits64 family value).lanes.toList.reverse = [value] := rfl
  rw [finish, word, Fingerprint.ofWords_singleton]
  rfl

section Wide

variable (h : Hasher .bits128) (low : 0 < Width.bits128.words) (high : 1 < Width.bits128.words)
include low high

/-- The fingerprint of a wide hasher is made of its two lanes. -/
theorem finish_eq_ofTwoWords : h.finish = Fingerprint.ofTwoWords h.lanes[1] h.lanes[0] := by
  have words (v : Vector UInt64 2) : v.toList.reverse = [v[1], v[0]] := by
    match v with
    | ⟨⟨[_, _]⟩, _⟩ => rfl
  exact (congrArg (Fingerprint.ofWords .bits128) (words h.lanes)).trans
    (Fingerprint.ofWords_pair ..)

/-- Its low word is the fingerprint of its first lane. -/
theorem lowWord_finish : h.finish.lowWord = (h.lane 0 low).finish.value := by
  have fits := h.lanes[0].toNat_lt
  rw [finish_eq_ofTwoWords h low high, lane, value_finish_filled]
  exact Nat.mul_add_mod_of_lt fits

/-- Its high word is the fingerprint of its second lane. -/
theorem address_finish : h.finish.address = (h.lane 1 high).finish.value := by
  have fits := h.lanes[0].toNat_lt
  rw [finish_eq_ofTwoWords h low high, lane, value_finish_filled]
  show (h.lanes[1].toNat * 2 ^ 64 + h.lanes[0].toNat) / 2 ^ 64 = h.lanes[1].toNat
  omega

end Wide

/-- Hashing is incremental. The lanes of a wide hasher take in what two narrow hashers take in, one
of its own family and one of the next: from the start on and after any inputs, the low word of its
fingerprint is the fingerprint of the one and the high word that of the other. Any hasher takes in
inputs as their bytes, one at a time, so inputs that feed the same bytes in a row lead to the same
hasher. A text in two parts is taken in part after part, and any text character by character; the
bytes of a text are the low bytes of the 16-bit units that spell it. -/
theorem incremental_of_inputs :
    (∀ (family : Family) (inputs : List Input),
      let narrow (f : Family) := (inputs.foldl extend (start .bits64 f)).finish
      let wide := (inputs.foldl extend (start .bits128 family)).finish
      wide.lowWord = (narrow family).value ∧ wide.address = (narrow (family.ahead 1)).value ∧
        (family.ahead 1).val = (family.val + 1) % 131) ∧
    (∀ {w : Width} (h : Hasher w) (inputs : List Input),
      inputs.foldl extend h = ((inputs.flatMap Input.toBytes).map Input.byte).foldl extend h) ∧
    (∀ {w : Width} (h : Hasher w) (inputs inputs' : List Input),
      inputs.flatMap Input.toBytes = inputs'.flatMap Input.toBytes →
        inputs.foldl extend h = inputs'.foldl extend h) ∧
    (∀ {w : Width} (h : Hasher w) (s t : String),
      h.extend (.text (s ++ t)) = (h.extend (.text s)).extend (.text t)) ∧
    (∀ {w : Width} (h : Hasher w) (s : String),
      h.extend (.text s) = s.toList.foldl (fun g c => g.extend (.char c)) h) ∧
    ∀ s : String, ∃ units, Units.join? units = some s.toList ∧ (∀ u ∈ units, u < 0x10000) ∧
      (Input.text s).toBytes = units.map fun u => UInt8.ofNat (u % 0x100) := by
  refine ⟨fun family inputs => ?_, fun h inputs => ?_, fun h inputs inputs' same => ?_,
    fun h s t => ?_, fun h s => ?_, fun s => ?_⟩
  · have lanes {k : Nat} (inside : k < Width.bits128.words) :
        (inputs.foldl extend (start .bits128 family)).lane k inside =
          inputs.foldl extend (start .bits64 (family.ahead k)) := by
      rw [lane_foldl_extend, lane_start]
    have low : 0 < Width.bits128.words := by decide
    have high : 1 < Width.bits128.words := by decide
    refine ⟨?_, ?_, rfl⟩
    · rw [lowWord_finish _ low high, lanes, ahead_zero]
    · rw [address_finish _ low high, lanes]
  · rw [foldl_extend, extendBytes_eq_foldl]
  · rw [foldl_extend, same, ← foldl_extend]
  · rw [extend, extend, extend, ← extendBytes_append, Input.toBytes, Units.ofString_append,
      List.map_append]
    rfl
  · have fed : (s.toList.map Input.char).flatMap Input.toBytes = (Input.text s).toBytes := by
      rw [Input.toBytes, Units.ofString, List.map_flatMap, List.flatMap_map]
      rfl
    rw [extend, ← fed, ← foldl_extend, List.foldl_map]
  · refine ⟨Units.ofString s, Units.join?_ofString s, fun u unit => Units.lt_of_mem_ofString unit,
      ?_⟩
    rw [Input.toBytes]
    refine List.map_congr_left fun u _ => ?_
    apply UInt8.toNat_inj.1
    simp

/-- A text with a character of two units, a negative number and one beyond 64 bits, and the same
bytes in other inputs, in the last family, which the first one follows. -/
theorem incremental_of_inputs_surrogates :
    let last : Family := ⟨130, by decide⟩
    let inputs : List Input := [.text "a😀", .int32 (-2), .integer 0x8000000000000000]
    let others : List Input := [.char 'a', .bytes [0x3D, 0x00], .byte 0xFE, .bytes [0xFF, 0xFF],
      .byte 0xFF, .int64 (-0x8000000000000000), .byte 0]
    let wide := (inputs.foldl extend (start .bits128 last)).finish
    inputs.flatMap Input.toBytes = others.flatMap Input.toBytes ∧
      (others.foldl extend (start .bits128 last)).finish = wide ∧
      wide.lowWord = (inputs.foldl extend (start .bits64 last)).finish.value ∧
      wide.address = (inputs.foldl extend (start .bits64 ⟨0, by decide⟩)).finish.value := by
  intro last inputs others wide
  have fed : inputs.flatMap Input.toBytes = others.flatMap Input.toBytes := by decide +kernel
  have next : last.ahead 1 = ⟨0, by decide⟩ := by decide
  obtain ⟨lanes, _, bytes, _⟩ := incremental_of_inputs
  obtain ⟨low, high, _⟩ := lanes last inputs
  rw [next] at high
  exact ⟨fed, congrArg finish (bytes _ _ _ fed.symm), low, high⟩

end Hasher

end SeenStates
