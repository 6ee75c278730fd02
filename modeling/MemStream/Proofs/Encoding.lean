import Mathlib.Tactic.IntervalCases
import MemStream.Text.Codec

/-!
# `MemStream.Proofs.Encoding` — what is read is what was written

Reading undoes writing, for bytes and for sixteen-bit units, and it reads nothing but what writing could have written: no
spelling that is longer than needed, no surrogate on its own, nothing above the last character and nothing that is cut
off. Both directions go character by character: one lemma says how the spelling of a character is read, the other that
whatever is read begins with the spelling of a character.

## Contents
- **Character by character.** `reads_iff_spelling` goes from the two directions for one character to a whole text.
- **Bytes.** `Utf8.decodeFrom_encodeChar`, `Utf8.exists_encodeChar`, and `Utf8.decode_eq_ok_iff`; `Utf8.encode_toList`
  says that the bytes are those that a string is kept as.
- **Sixteen-bit units.** `Utf16.decodeFrom_encodeChar`, `Utf16.exists_encodeChar`, and `Utf16.decode_eq_some_iff`.
- **Codecs.** `Codec.Faithful`, with `Codec.utf8_faithful` and `Codec.utf16_faithful`.
-/

namespace MemStream.Text

/-! ## Character by character -/

/-- A number that is neither a surrogate nor too large is that of a character, `Char.ofNat`. -/
theorem toNat_ofNat_of_valid {n : Nat} (h : n.isValidChar) : (Char.ofNat n).toNat = n := by
  unfold Char.ofNat
  rw [dif_pos h]
  rfl

theorem isValidChar_toNat (c : Char) : c.toNat.isValidChar := c.valid

/-- What is read character by character is read as a text exactly if it is the spelling of that text, one `spell` after
    the other. `Reads` tells what is read of the elements that are left, with the characters before them, last first,
    and with a state that reading a character changes by `next`. -/
theorem reads_iff_spelling {ε ι : Type} {spell : Char → List ε} (next : ι → Char → ι)
    (Reads : ι → List Char → List ε → List Char → Prop) (hspell : ∀ c, spell c ≠ [])
    (hnil : ∀ i done chars, Reads i done [] chars ↔ done.reverse = chars)
    (hchar : ∀ i done c rest chars, Reads i done (spell c ++ rest) chars ↔ Reads (next i c) (c :: done) rest chars)
    (hbegins : ∀ i done elements chars, elements ≠ [] → Reads i done elements chars → ∃ c rest, elements = spell c ++ rest)
    (i : ι) (done : List Char) (elements : List ε) (chars : List Char) :
    Reads i done elements chars ↔ ∃ text, done.reverse ++ text = chars ∧ elements = text.flatMap spell := by
  constructor
  · intro h
    -- every character takes at least one element away
    induction hn : elements.length using Nat.strong_induction_on generalizing elements done i with
    | _ n ih =>
        by_cases hne : elements = []
        · subst hne
          exact ⟨[], by rw [List.append_nil, (hnil i done chars).mp h], rfl⟩
        · obtain ⟨c, rest, rfl⟩ := hbegins i done elements chars hne h
          have hlength := List.length_pos_iff.mpr (hspell c)
          rw [List.length_append] at hn
          obtain ⟨text, hchars, rfl⟩ := ih rest.length (by omega) _ _ _ ((hchar i done c rest chars).mp h) rfl
          exact ⟨c :: text, by simpa using hchars, by simp⟩
  · rintro ⟨text, rfl, rfl⟩
    induction text generalizing done i with
    | nil => simp [hnil]
    | cons c text ih =>
        have hrest := ih (next i c) (c :: done)
        rw [List.flatMap_cons, hchar]
        simpa using hrest

/-! ## Bytes -/

namespace Utf8

variable {done chars : List Char} {start seen owed v : Nat} {low high : UInt8} {rest bytes : List UInt8}

/-- The value of a `tail` byte. -/
theorem toNat_tail (n : Nat) : (tail n).toNat = 0x80 + n % 0x40 := by
  unfold tail
  rw [UInt8.toNat_ofNat']
  omega

/-- A byte of the form `10xxxxxx` is a `tail`: it adds six bits to what was read before it. -/
theorem tail_of_le {b : UInt8} (hlow : 0x80 ≤ b.toNat) (hhigh : b.toNat ≤ 0xbf) (v : Nat) :
    tail (v * 0x40 + (b.toNat - 0x80)) = b := by
  apply UInt8.toNat_inj.mp
  rw [toNat_tail]
  omega

/-- After a `tail` that may stand at its place, the character is done or owes one byte less. -/
theorem decodeFrom_tail {n : Nat} (hlow : low.toNat ≤ 0x80 + n % 0x40) (hhigh : 0x80 + n % 0x40 ≤ high.toNat) :
    decodeFrom done start (some ⟨seen, owed + 1, low, high, n / 0x40⟩) (tail n :: rest) =
      if owed = 0 then decodeFrom (Char.ofNat n :: done) (start + (seen + 1)) none rest
      else decodeFrom done start (some ⟨seen + 1, owed, 0x80, 0xbf, n⟩) rest := by
  have hvalue : n / 0x40 * 0x40 + ((tail n).toNat - 0x80) = n := by
    rw [toNat_tail]
    omega
  have hplace : low ≤ tail n ∧ tail n ≤ high := by
    rw [UInt8.le_iff_toNat_le, UInt8.le_iff_toNat_le, toNat_tail]
    exact ⟨hlow, hhigh⟩
  simp [decodeFrom, hplace, Progress.push, hvalue]

/-- Whatever is read on owes a `tail`, and that byte stands at its place. -/
theorem exists_tail (hlow : 0x80 ≤ low.toNat) (hhigh : high.toNat ≤ 0xbf)
    (h : decodeFrom done start (some ⟨seen, owed + 1, low, high, v⟩) bytes = .ok chars) :
    ∃ n rest, bytes = tail n :: rest ∧ n / 0x40 = v ∧ low.toNat ≤ 0x80 + n % 0x40 ∧ 0x80 + n % 0x40 ≤ high.toNat := by
  cases bytes with
  | nil => cases h
  | cons b rest =>
      by_cases hplace : low ≤ b ∧ b ≤ high
      · rw [UInt8.le_iff_toNat_le, UInt8.le_iff_toNat_le] at hplace
        refine ⟨v * 0x40 + (b.toNat - 0x80), rest, ?_, ?_, ?_, ?_⟩
        · rw [tail_of_le (by omega) (by omega)]
        all_goals omega
      · simp [decodeFrom, hplace] at h

theorem decodeFrom_tails_one {n : Nat} (hlow : low.toNat ≤ 0x80 + n % 0x40) (hhigh : 0x80 + n % 0x40 ≤ high.toNat) :
    decodeFrom done start (some ⟨seen, 1, low, high, n / 0x40⟩) (tail n :: rest) =
      decodeFrom (Char.ofNat n :: done) (start + (seen + 1)) none rest := by
  rw [decodeFrom_tail hlow hhigh, if_pos rfl]

/-- The last two bytes of a character, each a `tail`. -/
theorem decodeFrom_tails_two {n : Nat} (hlow : low.toNat ≤ 0x80 + n / 0x40 % 0x40)
    (hhigh : 0x80 + n / 0x40 % 0x40 ≤ high.toNat) :
    decodeFrom done start (some ⟨seen, 2, low, high, n / 0x1000⟩) (tail (n / 0x40) :: tail n :: rest) =
      decodeFrom (Char.ofNat n :: done) (start + (seen + 2)) none rest := by
  have hsplit : n / 0x1000 = n / 0x40 / 0x40 := by omega
  rw [hsplit, decodeFrom_tail hlow hhigh, if_neg (by omega), decodeFrom_tails_one (by simp) (by simp; omega)]

theorem decodeFrom_tails_three {n : Nat} (hlow : low.toNat ≤ 0x80 + n / 0x1000 % 0x40)
    (hhigh : 0x80 + n / 0x1000 % 0x40 ≤ high.toNat) :
    decodeFrom done start (some ⟨seen, 3, low, high, n / 0x40000⟩)
        (tail (n / 0x1000) :: tail (n / 0x40) :: tail n :: rest) =
      decodeFrom (Char.ofNat n :: done) (start + (seen + 3)) none rest := by
  have hsplit : n / 0x40000 = n / 0x1000 / 0x40 := by omega
  rw [hsplit, decodeFrom_tail hlow hhigh, if_neg (by omega), decodeFrom_tails_two (by simp) (by simp; omega)]

theorem exists_tails_two (hlow : 0x80 ≤ low.toNat) (hhigh : high.toNat ≤ 0xbf)
    (h : decodeFrom done start (some ⟨seen, 2, low, high, v⟩) bytes = .ok chars) :
    ∃ n rest, bytes = tail (n / 0x40) :: tail n :: rest ∧ n / 0x1000 = v ∧
      low.toNat ≤ 0x80 + n / 0x40 % 0x40 ∧ 0x80 + n / 0x40 % 0x40 ≤ high.toNat := by
  obtain ⟨m, bytes, rfl, rfl, hlow', hhigh'⟩ := exists_tail hlow hhigh h
  rw [decodeFrom_tail hlow' hhigh', if_neg (by omega)] at h
  obtain ⟨n, rest, rfl, rfl, -, -⟩ := exists_tail (by simp) (by simp) h
  exact ⟨n, rest, rfl, by omega, hlow', hhigh'⟩

theorem exists_tails_three (hlow : 0x80 ≤ low.toNat) (hhigh : high.toNat ≤ 0xbf)
    (h : decodeFrom done start (some ⟨seen, 3, low, high, v⟩) bytes = .ok chars) :
    ∃ n rest, bytes = tail (n / 0x1000) :: tail (n / 0x40) :: tail n :: rest ∧ n / 0x40000 = v ∧
      low.toNat ≤ 0x80 + n / 0x1000 % 0x40 ∧ 0x80 + n / 0x1000 % 0x40 ≤ high.toNat := by
  obtain ⟨m, bytes, rfl, rfl, hlow', hhigh'⟩ := exists_tail hlow hhigh h
  rw [decodeFrom_tail hlow' hhigh', if_neg (by omega)] at h
  obtain ⟨n, rest, rfl, rfl, -, -⟩ := exists_tails_two (by simp) (by simp) h
  exact ⟨n, rest, rfl, by omega, hlow', hhigh'⟩

/-! ### First bytes -/

/-- The first of two bytes, and what `lead` announces for the second. -/
theorem lead_two (hlow : 2 ≤ v) (hhigh : v < 0x20) :
    lead (UInt8.ofNat (0xc0 + v)) = some ⟨1, 1, 0x80, 0xbf, v⟩ := by
  interval_cases v <;> rfl

/-- The first of three bytes; by the bounds that `lead` announces, what would fit into two is left out, and so are
    surrogates. -/
theorem lead_three (hhigh : v < 0x10) :
    lead (UInt8.ofNat (0xe0 + v)) =
      some ⟨1, 2, if v = 0 then 0xa0 else 0x80, if v = 0xd then 0x9f else 0xbf, v⟩ := by
  interval_cases v <;> rfl

/-- The first of four bytes; by the bounds that `lead` announces, what would fit into three is left out, and so is what
    is too large. -/
theorem lead_four (hhigh : v < 5) :
    lead (UInt8.ofNat (0xf0 + v)) =
      some ⟨1, 3, if v = 0 then 0x90 else 0x80, if v = 4 then 0x8f else 0xbf, v⟩ := by
  interval_cases v <;> rfl

/-- The bounds of `lead_three` leave out what would fit into two bytes, and surrogates. -/
theorem bounds_three {n : Nat} (hn : n < 0x10000) :
    ((if n / 0x1000 = 0 then 0xa0 else 0x80 : UInt8).toNat ≤ 0x80 + n / 0x40 % 0x40 ∧
        0x80 + n / 0x40 % 0x40 ≤ (if n / 0x1000 = 0xd then 0x9f else 0xbf : UInt8).toNat) ↔
      0x800 ≤ n ∧ n.isValidChar := by
  unfold Nat.isValidChar
  split <;> split <;> simp <;> omega

/-- The bounds of `lead_four` leave out what would fit into three bytes, and values that are too large. -/
theorem bounds_four {n : Nat} (hn : n / 0x40000 < 5) :
    ((if n / 0x40000 = 0 then 0x90 else 0x80 : UInt8).toNat ≤ 0x80 + n / 0x1000 % 0x40 ∧
        0x80 + n / 0x1000 % 0x40 ≤ (if n / 0x40000 = 4 then 0x8f else 0xbf : UInt8).toNat) ↔
      0x10000 ≤ n ∧ n.isValidChar := by
  unfold Nat.isValidChar
  split <;> split <;> simp <;> omega

/-- No other bytes announce a character of two or more: `lead` gives `none` for them. -/
theorem lead_cases {b : UInt8} (h : lead b ≠ none) :
    (∃ v, 2 ≤ v ∧ v < 0x20 ∧ b = UInt8.ofNat (0xc0 + v)) ∨ (∃ v < 0x10, b = UInt8.ofNat (0xe0 + v)) ∨
      ∃ v < 5, b = UInt8.ofNat (0xf0 + v) := by
  have hbyte : ∀ n < 256, lead (UInt8.ofNat n) ≠ none → 0xc2 ≤ n ∧ n < 0xf5 := by decide +kernel
  obtain ⟨hlow, hhigh⟩ := hbyte b.toNat b.toNat_lt (by rwa [UInt8.ofNat_toNat])
  have hself : ∀ n, n = b.toNat → b = UInt8.ofNat n := by
    rintro n rfl
    rw [UInt8.ofNat_toNat]
  by_cases htwo : b.toNat < 0xe0
  · exact .inl ⟨b.toNat - 0xc0, by omega, by omega, hself _ (by omega)⟩
  by_cases hthree : b.toNat < 0xf0
  · exact .inr (.inl ⟨b.toNat - 0xe0, by omega, hself _ (by omega)⟩)
  · exact .inr (.inr ⟨b.toNat - 0xf0, by omega, hself _ (by omega)⟩)

/-! ### Characters -/

/-- The spelling of a character is the one that strings are kept in, `String.utf8EncodeChar`. -/
theorem encodeChar_eq (c : Char) : encodeChar c = String.utf8EncodeChar c := by
  have hvalid := isValidChar_toNat c
  unfold Nat.isValidChar at hvalid
  have hsame : ∀ a b, a % 256 = b % 256 → UInt8.ofNat a = UInt8.ofNat b := by
    intro a b h
    apply UInt8.toNat_inj.mp
    rw [UInt8.toNat_ofNat', UInt8.toNat_ofNat', h]
  unfold encodeChar String.utf8EncodeChar tail
  simp only [Char.toNat_val]
  generalize c.toNat = n at *
  by_cases hone : n < 0x80
  · have hone' : n ≤ 127 := by omega
    rw [if_pos hone, if_pos hone']
  have hone' : ¬ n ≤ 127 := by omega
  rw [if_neg hone, if_neg hone']
  by_cases htwo : n < 0x800
  · have htwo' : n ≤ 2047 := by omega
    rw [if_pos htwo, if_pos htwo', hsame (n / 64 % 32 + 192) (0xc0 + n / 0x40) (by omega), Nat.add_comm 0x80]
  have htwo' : ¬ n ≤ 2047 := by omega
  rw [if_neg htwo, if_neg htwo']
  rw [Nat.add_comm 0x80, Nat.add_comm 0x80, Nat.add_comm 0x80]
  by_cases hthree : n < 0x10000
  · have hthree' : n ≤ 65535 := by omega
    rw [if_pos hthree, if_pos hthree', hsame (n / 4096 % 16 + 224) (0xe0 + n / 0x1000) (by omega)]
  have hthree' : ¬ n ≤ 65535 := by omega
  rw [if_neg hthree, if_neg hthree', hsame (n / 262144 % 8 + 240) (0xf0 + n / 0x40000) (by omega)]

/-- The spelling of a text is what its string is kept as, `String.toByteArray`. -/
theorem encode_toList (text : String) : encode text.toList = text.toByteArray.data.toList := by
  have hchars : encodeChar = String.utf8EncodeChar := funext encodeChar_eq
  rw [← String.utf8Encode_toList]
  unfold encode List.utf8Encode
  rw [hchars]
  simp

theorem encodeChar_one {n : Nat} (h : n < 0x80) : encodeChar (Char.ofNat n) = [UInt8.ofNat n] := by
  have hvalid : n.isValidChar := by
    unfold Nat.isValidChar
    omega
  simp [encodeChar, toNat_ofNat_of_valid hvalid, h]

theorem encodeChar_two {n : Nat} (hlow : 0x80 ≤ n) (hhigh : n < 0x800) :
    encodeChar (Char.ofNat n) = [UInt8.ofNat (0xc0 + n / 0x40), tail n] := by
  have hvalid : n.isValidChar := by
    unfold Nat.isValidChar
    omega
  have hone : ¬ n < 0x80 := by omega
  simp [encodeChar, toNat_ofNat_of_valid hvalid, hone, hhigh]

theorem encodeChar_three {n : Nat} (hvalid : n.isValidChar) (hlow : 0x800 ≤ n) (hhigh : n < 0x10000) :
    encodeChar (Char.ofNat n) = [UInt8.ofNat (0xe0 + n / 0x1000), tail (n / 0x40), tail n] := by
  have hone : ¬ n < 0x80 := by omega
  have htwo : ¬ n < 0x800 := by omega
  simp [encodeChar, toNat_ofNat_of_valid hvalid, hone, htwo, hhigh]

theorem encodeChar_four {n : Nat} (hvalid : n.isValidChar) (hlow : 0x10000 ≤ n) :
    encodeChar (Char.ofNat n) =
      [UInt8.ofNat (0xf0 + n / 0x40000), tail (n / 0x1000), tail (n / 0x40), tail n] := by
  have hone : ¬ n < 0x80 := by omega
  have htwo : ¬ n < 0x800 := by omega
  have hthree : ¬ n < 0x10000 := by omega
  simp [encodeChar, toNat_ofNat_of_valid hvalid, hone, htwo, hthree]

theorem decodeFrom_lead {b : UInt8} {p : Progress} (hb : 0x80 ≤ b.toNat) (hp : lead b = some p) :
    decodeFrom done start none (b :: rest) = decodeFrom done start (some p) rest := by
  have hlarge : ¬ b < 0x80 := by
    rw [UInt8.lt_iff_toNat_lt]
    exact Nat.not_lt.mpr hb
  simp [decodeFrom, hlarge, hp]

/-- The spelling of a character is read by `decodeFrom` as that character. -/
theorem decodeFrom_encodeChar (c : Char) :
    decodeFrom done start none (encodeChar c ++ rest) =
      decodeFrom (c :: done) (start + (encodeChar c).length) none rest := by
  obtain ⟨n, hvalid, rfl⟩ : ∃ n, n.isValidChar ∧ c = Char.ofNat n :=
    ⟨c.toNat, isValidChar_toNat c, (Char.ofNat_toNat c).symm⟩
  have hsize : n < 0x110000 := by
    unfold Nat.isValidChar at hvalid
    omega
  by_cases hone : n < 0x80
  · have hbyte : (UInt8.ofNat n).toNat = n := by
      rw [UInt8.toNat_ofNat']
      omega
    have hsmall : UInt8.ofNat n < 0x80 := by
      rw [UInt8.lt_iff_toNat_lt, hbyte]
      exact hone
    rw [encodeChar_one hone]
    simp [decodeFrom, hsmall, hbyte]
  by_cases htwo : n < 0x800
  · have hb : 0x80 ≤ (UInt8.ofNat (0xc0 + n / 0x40)).toNat := by
      rw [UInt8.toNat_ofNat']
      omega
    rw [encodeChar_two (by omega) htwo]
    simp only [List.cons_append, List.nil_append]
    rw [decodeFrom_lead hb (lead_two (by omega) (by omega)), decodeFrom_tails_one (by simp) (by simp; omega)]
    rfl
  by_cases hthree : n < 0x10000
  · have hb : 0x80 ≤ (UInt8.ofNat (0xe0 + n / 0x1000)).toNat := by
      rw [UInt8.toNat_ofNat']
      omega
    obtain ⟨hlow, hhigh⟩ := (bounds_three hthree).mpr ⟨by omega, hvalid⟩
    rw [encodeChar_three hvalid (by omega) hthree]
    simp only [List.cons_append, List.nil_append]
    rw [decodeFrom_lead hb (lead_three (by omega)), decodeFrom_tails_two hlow hhigh]
    rfl
  · have hb : 0x80 ≤ (UInt8.ofNat (0xf0 + n / 0x40000)).toNat := by
      rw [UInt8.toNat_ofNat']
      omega
    obtain ⟨hlow, hhigh⟩ := (bounds_four (by omega)).mpr ⟨by omega, hvalid⟩
    rw [encodeChar_four hvalid (by omega)]
    simp only [List.cons_append, List.nil_append]
    rw [decodeFrom_lead hb (lead_four (by omega)), decodeFrom_tails_three hlow hhigh]
    rfl

/-- Whatever `decodeFrom` reads begins with the spelling of a character. -/
theorem exists_encodeChar (hne : bytes ≠ []) (h : decodeFrom done start none bytes = .ok chars) :
    ∃ c rest, bytes = encodeChar c ++ rest := by
  obtain ⟨b, bytes, rfl⟩ := List.exists_cons_of_ne_nil hne
  by_cases hsmall : b.toNat < 0x80
  · exact ⟨Char.ofNat b.toNat, bytes, by rw [encodeChar_one hsmall, UInt8.ofNat_toNat]; rfl⟩
  cases hlead : lead b with
  | none =>
      have hlarge : ¬ b < 0x80 := by
        rw [UInt8.lt_iff_toNat_lt]
        exact hsmall
      simp [decodeFrom, hlarge, hlead] at h
  | some p =>
      rw [decodeFrom_lead (Nat.not_lt.mp hsmall) hlead] at h
      rcases lead_cases (hlead ▸ Option.some_ne_none p) with ⟨v, hv, hv', rfl⟩ | ⟨v, hv, rfl⟩ | ⟨v, hv, rfl⟩
      · rw [lead_two hv hv'] at hlead
        cases hlead
        obtain ⟨n, rest, rfl, rfl, -, -⟩ := exists_tail (by simp) (by simp) h
        exact ⟨Char.ofNat n, rest, by rw [encodeChar_two (by omega) (by omega)]; rfl⟩
      · rw [lead_three hv] at hlead
        cases hlead
        obtain ⟨n, rest, rfl, rfl, hlow, hhigh⟩ := exists_tails_two (by split <;> simp) (by split <;> simp) h
        have hn : n < 0x10000 := by omega
        obtain ⟨hlong, hvalid⟩ := (bounds_three hn).mp ⟨hlow, hhigh⟩
        exact ⟨Char.ofNat n, rest, by rw [encodeChar_three hvalid hlong hn]; rfl⟩
      · rw [lead_four hv] at hlead
        cases hlead
        obtain ⟨n, rest, rfl, rfl, hlow, hhigh⟩ := exists_tails_three (by split <;> simp) (by split <;> simp) h
        obtain ⟨hlong, hvalid⟩ := (bounds_four hv).mp ⟨hlow, hhigh⟩
        exact ⟨Char.ofNat n, rest, by rw [encodeChar_four hvalid hlong]; rfl⟩

theorem encodeChar_ne_nil (c : Char) : encodeChar c ≠ [] := by
  unfold encodeChar
  simp only
  split
  · simp
  split
  · simp
  split <;> simp

/-- **Bytes are read as a text exactly if they are its spelling**: `decode` undoes `encode` and reads nothing else. -/
theorem decode_eq_ok_iff : decode bytes = .ok chars ↔ bytes = encode chars := by
  have hiff := reads_iff_spelling (fun start c => start + (encodeChar c).length)
    (fun start done bytes chars => decodeFrom done start none bytes = .ok chars) encodeChar_ne_nil
    (by simp [decodeFrom]) (fun _ _ _ _ _ => by rw [decodeFrom_encodeChar]) (fun _ _ _ _ => exists_encodeChar)
    0 [] bytes chars
  simpa [decode, encode] using hiff

end Utf8

/-! ## Sixteen-bit units -/

namespace Utf16

variable {done chars : List Char} {rest units : List UInt16}

/-- The units that `isHigh` picks out, by their values. -/
theorem isHigh_iff {u : UInt16} : isHigh u = true ↔ 0xd800 ≤ u.toNat ∧ u.toNat < 0xdc00 := by
  simp [isHigh, UInt16.le_iff_toNat_le, UInt16.lt_iff_toNat_lt]

/-- The units that `isLow` picks out, by their values. -/
theorem isLow_iff {u : UInt16} : isLow u = true ↔ 0xdc00 ≤ u.toNat ∧ u.toNat < 0xe000 := by
  simp [isLow, UInt16.le_iff_toNat_le, UInt16.lt_iff_toNat_lt]

/-- A unit that is no surrogate is read by `decodeFrom` as a character. -/
theorem decodeFrom_one {u : UInt16} (hhigh : ¬ isHigh u = true) (hlow : ¬ isLow u = true) :
    decodeFrom done none (u :: rest) = decodeFrom (Char.ofNat u.toNat :: done) none rest := by
  simp [decodeFrom, hhigh, hlow]

/-- Two surrogates, the high one first, are read as a character, `ofPair`. -/
theorem decodeFrom_two {high low : UInt16} (hhigh : isHigh high = true) (hlow : isLow low = true) :
    decodeFrom done none (high :: low :: rest) = decodeFrom (ofPair high low :: done) none rest := by
  simp [decodeFrom, hhigh, hlow]

/-- The spelling of a character is read by `decodeFrom` as that character. -/
theorem decodeFrom_encodeChar (c : Char) :
    decodeFrom done none (encodeChar c ++ rest) = decodeFrom (c :: done) none rest := by
  have hself : Char.ofNat c.toNat = c := Char.ofNat_toNat c
  have hvalid := isValidChar_toNat c
  unfold Nat.isValidChar at hvalid
  unfold encodeChar
  generalize c.toNat = n at *
  simp only
  split
  next hone =>
    have hunit : (UInt16.ofNat n).toNat = n := by
      rw [UInt16.toNat_ofNat']
      omega
    rw [List.singleton_append, decodeFrom_one, hunit, hself]
    · rw [isHigh_iff, hunit]
      omega
    · rw [isLow_iff, hunit]
      omega
  next htwo =>
    have hhigh : (UInt16.ofNat (0xd800 + (n - 0x10000) / 0x400)).toNat = 0xd800 + (n - 0x10000) / 0x400 := by
      rw [UInt16.toNat_ofNat']
      omega
    have hlow : (UInt16.ofNat (0xdc00 + (n - 0x10000) % 0x400)).toNat = 0xdc00 + (n - 0x10000) % 0x400 := by
      rw [UInt16.toNat_ofNat']
      omega
    have hvalue : 0x10000 + (0xd800 + (n - 0x10000) / 0x400 - 0xd800) * 0x400 +
        (0xdc00 + (n - 0x10000) % 0x400 - 0xdc00) = n := by
      omega
    simp only [List.cons_append, List.nil_append]
    rw [decodeFrom_two, ofPair, hhigh, hlow, hvalue, hself]
    · rw [isHigh_iff, hhigh]
      omega
    · rw [isLow_iff, hlow]
      omega

/-- A unit that is no surrogate is by `encodeChar` the spelling of a character. -/
theorem encodeChar_one {u : UInt16} (hhigh : ¬ isHigh u = true) (hlow : ¬ isLow u = true) :
    encodeChar (Char.ofNat u.toNat) = [u] := by
  have hsize := u.toNat_lt
  have hvalid : u.toNat.isValidChar := by
    rw [isHigh_iff] at hhigh
    rw [isLow_iff] at hlow
    unfold Nat.isValidChar
    omega
  unfold encodeChar
  rw [toNat_ofNat_of_valid hvalid, if_pos hsize, UInt16.ofNat_toNat]

/-- Two surrogates, the high one first, are the spelling of the character `ofPair`. -/
theorem encodeChar_two {high low : UInt16} (hhigh : isHigh high = true) (hlow : isLow low = true) :
    encodeChar (ofPair high low) = [high, low] := by
  rw [isHigh_iff] at hhigh
  rw [isLow_iff] at hlow
  have hvalid : (0x10000 + (high.toNat - 0xd800) * 0x400 + (low.toNat - 0xdc00)).isValidChar := by
    unfold Nat.isValidChar
    omega
  have hlarge : ¬ 0x10000 + (high.toNat - 0xd800) * 0x400 + (low.toNat - 0xdc00) < 0x10000 := by omega
  have hfirst : 0xd800 + (0x10000 + (high.toNat - 0xd800) * 0x400 + (low.toNat - 0xdc00) - 0x10000) / 0x400 =
      high.toNat := by
    omega
  have hsecond : 0xdc00 + (0x10000 + (high.toNat - 0xd800) * 0x400 + (low.toNat - 0xdc00) - 0x10000) % 0x400 =
      low.toNat := by
    omega
  unfold encodeChar ofPair
  rw [toNat_ofNat_of_valid hvalid, if_neg hlarge, hfirst, hsecond, UInt16.ofNat_toNat, UInt16.ofNat_toNat]

/-- Whatever `decodeFrom` reads begins with the spelling of a character. -/
theorem exists_encodeChar (hne : units ≠ []) (h : decodeFrom done none units = some chars) :
    ∃ c rest, units = encodeChar c ++ rest := by
  obtain ⟨u, units, rfl⟩ := List.exists_cons_of_ne_nil hne
  unfold decodeFrom at h
  split at h
  next hhigh =>
    cases units with
    | nil => cases h
    | cons low rest =>
        unfold decodeFrom at h
        split at h
        next hlow => exact ⟨ofPair u low, rest, by rw [encodeChar_two hhigh hlow]; rfl⟩
        next => cases h
  next hhigh =>
    split at h
    next => cases h
    next hlow => exact ⟨Char.ofNat u.toNat, units, by rw [encodeChar_one hhigh hlow]; rfl⟩

theorem encodeChar_ne_nil (c : Char) : encodeChar c ≠ [] := by
  unfold encodeChar
  simp only
  split <;> simp

/-- **Units are read as a text exactly if they are its spelling**: `decode` undoes `encode` and reads nothing else. -/
theorem decode_eq_some_iff : decode units = some chars ↔ units = encode chars := by
  have hiff := reads_iff_spelling (fun (_ : Unit) _ => ())
    (fun _ done units chars => decodeFrom done none units = some chars) encodeChar_ne_nil
    (by simp [decodeFrom]) (fun _ _ _ _ _ => by rw [decodeFrom_encodeChar]) (fun _ _ _ _ => exists_encodeChar)
    () [] units chars
  simpa [decode, encode] using hiff

end Utf16

/-! ## Codecs -/

/-- A codec whose `decode` reads exactly what its `encode` writes. -/
def Codec.Faithful {σ : Type} (codec : Codec σ) : Prop :=
  ∀ s text, codec.decode s = .ok text ↔ s = codec.encode text

namespace Codec

/-- The codec of bytes is `Faithful`, by `Utf8.decode_eq_ok_iff`. -/
theorem utf8_faithful {limit : Nat} : (Codec.utf8 : Codec (Cells UInt8 limit)).Faithful := by
  rintro ⟨bytes⟩ text
  have hdecode : Utf8.decode bytes.toList = .ok text.toList ↔ bytes.toList = Utf8.encode text.toList :=
    Utf8.decode_eq_ok_iff
  have hencode : (⟨bytes⟩ : Cells UInt8 limit) = Codec.utf8.encode text ↔ bytes.toList = Utf8.encode text.toList := by
    simp [Codec.utf8, ← Array.toList_inj]
  rw [hencode, ← hdecode]
  unfold Codec.utf8
  simp only
  cases hread : Utf8.decode bytes.toList with
  | error flaw => simp
  | ok chars => simp [← String.toList_inj]

/-- The codec of sixteen-bit units is `Faithful`, by `Utf16.decode_eq_some_iff`. -/
theorem utf16_faithful {limit : Nat} : (Codec.utf16 : Codec (Cells UInt16 limit)).Faithful := by
  rintro ⟨units⟩ text
  have hdecode : Utf16.decode units.toList = some text.toList ↔ units.toList = Utf16.encode text.toList :=
    Utf16.decode_eq_some_iff
  have hencode : (⟨units⟩ : Cells UInt16 limit) = Codec.utf16.encode text ↔ units.toList = Utf16.encode text.toList := by
    simp [Codec.utf16, ← Array.toList_inj]
  rw [hencode, ← hdecode]
  unfold Codec.utf16
  simp only
  cases hread : Utf16.decode units.toList with
  | none => simp
  | some chars => simp [← String.toList_inj]

end Codec

end MemStream.Text
