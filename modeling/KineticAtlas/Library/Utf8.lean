import KineticAtlas.Library.Texts

/-!
UTF-8 decoding with the replacement policy of the standard libraries: the input is
read as a sequence of scalar values and of maximal ill-formed parts. A strict
reader rejects any ill-formed part, a lossy one puts U+FFFD in its place.
-/
namespace Library.Utf8

open Texts

/-- How a lead byte goes on: the number of continuation bytes, its payload, and the
bounds on the first continuation byte, which exclude overlong forms and surrogates. -/
def lead (b : ℕ) : Option (ℕ × ℕ × ℕ × ℕ) :=
  if b < 0x80 then some (0, b, 0x80, 0xBF)
  else if 0xC2 ≤ b ∧ b ≤ 0xDF then some (1, b % 32, 0x80, 0xBF)
  else if b = 0xE0 then some (2, b % 16, 0xA0, 0xBF)
  else if b = 0xED then some (2, b % 16, 0x80, 0x9F)
  else if 0xE1 ≤ b ∧ b ≤ 0xEF then some (2, b % 16, 0x80, 0xBF)
  else if b = 0xF0 then some (3, b % 8, 0x90, 0xBF)
  else if 0xF1 ≤ b ∧ b ≤ 0xF3 then some (3, b % 8, 0x80, 0xBF)
  else if b = 0xF4 then some (3, b % 8, 0x80, 0x8F)
  else none

/-- The continuation bytes of one scalar value; a byte that does not fit is left. -/
def continuation : ℕ → ℕ → ℕ → ℕ → Bytes → Option Char × Bytes
  | 0, code, _, _, bytes => (some (Char.ofNat code), bytes)
  | _ + 1, _, _, _, [] => (none, [])
  | n + 1, code, lo, hi, b :: bytes =>
    if lo ≤ b.toNat ∧ b.toNat ≤ hi then
      continuation n (code * 64 + b.toNat % 64) 0x80 0xBF bytes
    else (none, b :: bytes)

/-- Every round takes at least one byte, so the length of the input is fuel enough. -/
def chunks : ℕ → Bytes → List (Option Char)
  | 0, _ => []
  | _ + 1, [] => []
  | fuel + 1, b :: bytes =>
    match lead b.toNat with
    | none => none :: chunks fuel bytes
    | some (n, code, lo, hi) =>
      let (scalar, rest) := continuation n code lo hi bytes
      scalar :: chunks fuel rest

/-- `String::from_utf8_lossy`. -/
def decodeLossy (bytes : Bytes) : Str :=
  (chunks bytes.length bytes).map fun chunk => chunk.getD (Char.ofNat 0xFFFD)

/-- `std::str::from_utf8`. -/
def decodeStrict (bytes : Bytes) : Option Str := (chunks bytes.length bytes).mapM id

def encode (text : Str) : Bytes := text.flatMap String.utf8EncodeChar

theorem utf8EncodeChar_ascii {c : Char} (h : c.toNat < 128) :
    String.utf8EncodeChar c = [UInt8.ofNat c.toNat] := by
  have hval : c.val.toNat ≤ 0x7f := Nat.le_of_lt_succ h
  simp only [String.utf8EncodeChar, if_pos hval]
  rfl

/-- Every other character has a byte out of the range of ASCII, namely its last. -/
theorem exists_high_byte {c : Char} (h : 128 ≤ c.toNat) :
    ∃ b ∈ String.utf8EncodeChar c, 128 ≤ b := by
  have hval : ¬ c.val.toNat ≤ 0x7f := Nat.not_le_of_lt h
  have hlast : UInt8.ofNat (c.val.toNat % 0x40 + 0x80) ∈ String.utf8EncodeChar c := by
    unfold String.utf8EncodeChar
    dsimp only
    rw [if_neg hval]
    split
    · simp
    · split <;> simp
  refine ⟨_, hlast, ?_⟩
  rw [UInt8.le_iff_toNat_le]
  have hmod : c.val.toNat % 0x40 < 0x40 := Nat.mod_lt _ (by decide)
  have hsmall : c.val.toNat % 0x40 + 0x80 < 2 ^ 8 := by omega
  rw [UInt8.toNat_ofNat_of_lt' hsmall]
  exact Nat.le_add_left _ _

theorem encode_ascii {text : Str} (h : ∀ c ∈ text, c.toNat < 128) :
    encode text = text.map fun c => UInt8.ofNat c.toNat := by
  induction text with
  | nil => rfl
  | cons c rest ih =>
    have hrest := ih fun d hd => h d (List.mem_cons_of_mem c hd)
    rw [encode, List.flatMap_cons, utf8EncodeChar_ascii (h c (by simp))]
    exact congrArg _ hrest

theorem toNat_byte {n : ℕ} (h : n < 256) : (UInt8.ofNat n).toNat = n :=
  UInt8.toNat_ofNat_of_lt' h

/-- A continuation byte adds its six bits. -/
theorem continuation_byte {lo hi : ℕ} (k code n : ℕ) (bytes : Bytes) (hlo : lo ≤ n % 64 + 0x80)
    (hhi : n % 64 + 0x80 ≤ hi) :
    continuation (k + 1) code lo hi (UInt8.ofNat (n % 64 + 0x80) :: bytes) =
      continuation k (code * 64 + n % 64) 0x80 0xBF bytes := by
  have hbyte := toNat_byte (n := n % 64 + 0x80) (by omega)
  have hbits : (n % 64 + 0x80) % 64 = n % 64 := by omega
  rw [continuation, hbyte, if_pos ⟨hlo, hhi⟩, hbits]

theorem lead_two {n : ℕ} (hlow : 0x80 ≤ n) (hhigh : n ≤ 0x7FF) :
    lead (n / 64 % 32 + 0xC0) = some (1, n / 64, 0x80, 0xBF) := by
  have hbits : (n / 64 % 32 + 0xC0) % 32 = n / 64 := by omega
  rw [lead, if_neg (by omega), if_pos (by omega), hbits]

/-- The bounds on the byte after the lead leave out surrogates and what is too small. -/
theorem lead_three {n : ℕ} (hlow : 0x800 ≤ n) (hhigh : n ≤ 0xFFFF)
    (hvalid : n < 0xD800 ∨ 0xDFFF < n) :
    ∃ lo hi, lead (n / 4096 % 16 + 0xE0) = some (2, n / 4096, lo, hi) ∧
      lo ≤ n / 64 % 64 + 0x80 ∧ n / 64 % 64 + 0x80 ≤ hi := by
  have hbits : (n / 4096 % 16 + 0xE0) % 16 = n / 4096 := by omega
  unfold lead
  rw [if_neg (by omega), if_neg (by omega), hbits]
  split
  · exact ⟨_, _, rfl, by omega, by omega⟩
  split
  · exact ⟨_, _, rfl, by omega, by omega⟩
  rw [if_pos (by omega)]
  exact ⟨_, _, rfl, by omega, by omega⟩

theorem lead_four {n : ℕ} (hlow : 0x10000 ≤ n) (hhigh : n < 0x110000) :
    ∃ lo hi, lead (n / 262144 % 8 + 0xF0) = some (3, n / 262144, lo, hi) ∧
      lo ≤ n / 4096 % 64 + 0x80 ∧ n / 4096 % 64 + 0x80 ≤ hi := by
  have hbits : (n / 262144 % 8 + 0xF0) % 8 = n / 262144 := by omega
  unfold lead
  rw [if_neg (by omega), if_neg (by omega), if_neg (by omega), if_neg (by omega),
    if_neg (by omega), hbits]
  split
  · exact ⟨_, _, rfl, by omega, by omega⟩
  split
  · exact ⟨_, _, rfl, by omega, by omega⟩
  rw [if_pos (by omega)]
  exact ⟨_, _, rfl, by omega, by omega⟩

/-- A character is read back off its bytes. -/
theorem chunks_encodeChar (c : Char) (bytes : Bytes) (fuel : ℕ) :
    chunks (fuel + 1) (String.utf8EncodeChar c ++ bytes) = some c :: chunks fuel bytes := by
  have hvalid : c.val.toNat < 0xD800 ∨ 0xDFFF < c.val.toNat ∧ c.val.toNat < 0x110000 := c.valid
  have hcode : Char.ofNat c.val.toNat = c := Char.ofNat_toNat c
  unfold String.utf8EncodeChar
  generalize c.val.toNat = n at hvalid hcode ⊢
  dsimp only
  split
  · rename_i hone
    have hlead : lead n = some (0, n, 0x80, 0xBF) := if_pos (by omega)
    rw [List.singleton_append, chunks, toNat_byte (by omega), hlead]
    simp only [continuation, hcode]
  split
  · rename_i hone htwo
    have hn : n / 64 * 64 + n % 64 = n := by omega
    rw [List.cons_append, List.singleton_append, chunks, toNat_byte (by omega),
      lead_two (by omega) htwo]
    dsimp only
    rw [continuation_byte _ _ _ _ (by omega) (by omega), hn]
    simp only [continuation, hcode]
  split
  · rename_i hone htwo hthree
    have hn : (n / 4096 * 64 + n / 64 % 64) * 64 + n % 64 = n := by omega
    obtain ⟨lo, hi, hlead, hlo, hhi⟩ := lead_three (n := n) (by omega) hthree (by omega)
    rw [List.cons_append, List.cons_append, List.singleton_append, chunks,
      toNat_byte (by omega), hlead]
    dsimp only
    rw [continuation_byte _ _ _ _ hlo hhi, continuation_byte _ _ _ _ (by omega) (by omega), hn]
    simp only [continuation, hcode]
  · rename_i hone htwo hthree
    have hn : ((n / 262144 * 64 + n / 4096 % 64) * 64 + n / 64 % 64) * 64 + n % 64 = n := by omega
    obtain ⟨lo, hi, hlead, hlo, hhi⟩ := lead_four (n := n) (by omega) (by omega)
    rw [List.cons_append, List.cons_append, List.cons_append, List.singleton_append, chunks,
      toNat_byte (by omega), hlead]
    dsimp only
    rw [continuation_byte _ _ _ _ hlo hhi, continuation_byte _ _ _ _ (by omega) (by omega),
      continuation_byte _ _ _ _ (by omega) (by omega), hn]
    simp only [continuation, hcode]

theorem chunks_encode (text : Str) (fuel : ℕ) (h : (encode text).length ≤ fuel) :
    chunks fuel (encode text) = text.map some := by
  induction text generalizing fuel with
  | nil => cases fuel <;> rfl
  | cons c rest ih =>
    have hlen : (encode (c :: rest)).length =
        (String.utf8EncodeChar c).length + (encode rest).length := by
      simp [encode]
    have hpos : 0 < (String.utf8EncodeChar c).length :=
      List.length_pos_iff.mpr String.utf8EncodeChar_ne_nil
    obtain ⟨fuel, rfl⟩ : ∃ k, fuel = k + 1 := ⟨fuel - 1, by omega⟩
    rw [encode, List.flatMap_cons, chunks_encodeChar, List.map_cons]
    exact congrArg _ (ih fuel (by omega))

theorem decodeStrict_encode (text : Str) : decodeStrict (encode text) = some text := by
  have hsome : ∀ cs : Str, (cs.map some).mapM id = some cs := by
    intro cs
    induction cs with
    | nil => rfl
    | cons c rest ih =>
      rw [List.map_cons, List.mapM_cons, ih]
      rfl
  rw [decodeStrict, chunks_encode text _ le_rfl]
  exact hsome text

/-- The first byte says how many follow. -/
theorem lead_encodeChar (c : Char) : ∃ b rest code lo hi,
    String.utf8EncodeChar c = b :: rest ∧ lead b.toNat = some (rest.length, code, lo, hi) := by
  have hvalid : c.val.toNat < 0xD800 ∨ 0xDFFF < c.val.toNat ∧ c.val.toNat < 0x110000 := c.valid
  unfold String.utf8EncodeChar
  generalize c.val.toNat = n at hvalid ⊢
  dsimp only
  split
  · have hlead : lead n = some (0, n, 0x80, 0xBF) := if_pos (by omega)
    exact ⟨_, _, _, _, _, rfl, by rw [toNat_byte (by omega), hlead]; rfl⟩
  split
  · exact ⟨_, _, _, _, _, rfl, by rw [toNat_byte (by omega), lead_two (by omega) ‹_›]; rfl⟩
  split
  · obtain ⟨lo, hi, hlead, -⟩ := lead_three (n := n) (by omega) ‹_› (by omega)
    exact ⟨_, _, _, _, _, rfl, by rw [toNat_byte (by omega), hlead]; rfl⟩
  · obtain ⟨lo, hi, hlead, -⟩ := lead_four (n := n) (by omega) (by omega)
    exact ⟨_, _, _, _, _, rfl, by rw [toNat_byte (by omega), hlead]; rfl⟩

theorem continuation_short {n code lo hi : ℕ} {bytes : Bytes} (h : bytes.length < n) :
    (continuation n code lo hi bytes).1 = none := by
  induction n generalizing code lo hi bytes with
  | zero => omega
  | succ n ih =>
    cases bytes with
    | nil => rfl
    | cons b bytes =>
      rw [continuation]
      split
      · exact ih (Nat.lt_of_succ_lt_succ h)
      · rfl

/-- A character that has been cut short is ill-formed. -/
theorem chunks_cut {c : Char} {bytes : Bytes} (hcut : bytes <+: String.utf8EncodeChar c)
    (hne : bytes ≠ []) (hshort : bytes.length < (String.utf8EncodeChar c).length) (fuel : ℕ) :
    none ∈ chunks (fuel + 1) bytes := by
  obtain ⟨b, rest, code, lo, hi, hchar, hlead⟩ := lead_encodeChar c
  rw [hchar] at hcut hshort
  cases bytes with
  | nil => exact absurd rfl hne
  | cons b' bytes =>
    obtain ⟨rfl, -⟩ := List.cons_prefix_cons.mp hcut
    rw [chunks, hlead]
    have hnone : (continuation rest.length code lo hi bytes).1 = none :=
      continuation_short (Nat.lt_of_succ_lt_succ hshort)
    simp [hnone]

/-- What is well formed among the beginnings of a text's bytes is a beginning of the text. -/
theorem prefix_of_chunks {text head : Str} {bytes : Bytes} {fuel : ℕ}
    (hbytes : bytes <+: encode text) (hfuel : bytes.length ≤ fuel)
    (hhead : chunks fuel bytes = head.map some) : head <+: text := by
  induction text generalizing head bytes fuel with
  | nil =>
    obtain rfl : bytes = [] := List.prefix_nil.mp hbytes
    cases fuel <;> cases head <;> simp_all [chunks]
  | cons c rest ih =>
    rw [encode, List.flatMap_cons] at hbytes
    obtain rfl | hne := eq_or_ne bytes []
    · cases fuel <;> cases head <;> simp_all [chunks]
    have hpos : 0 < bytes.length := List.length_pos_iff.mpr hne
    obtain ⟨fuel, rfl⟩ : ∃ k, fuel = k + 1 := ⟨fuel - 1, by omega⟩
    have hchar := List.prefix_append (String.utf8EncodeChar c) (rest.flatMap String.utf8EncodeChar)
    rcases Nat.lt_or_ge bytes.length (String.utf8EncodeChar c).length with hshort | hlong
    · have hcut := List.prefix_of_prefix_length_le hbytes hchar hshort.le
      have hnone := chunks_cut hcut hne hshort fuel
      simp [hhead] at hnone
    · obtain ⟨later, rfl⟩ := List.prefix_of_prefix_length_le hchar hbytes hlong
      have hfirst : 0 < (String.utf8EncodeChar c).length :=
        List.length_pos_iff.mpr String.utf8EncodeChar_ne_nil
      rw [List.length_append] at hfuel
      rw [chunks_encodeChar] at hhead
      cases head with
      | nil => cases hhead
      | cons d head =>
        rw [List.map_cons] at hhead
        obtain ⟨hd, hlater⟩ := List.cons.inj hhead
        obtain rfl : c = d := Option.some.inj hd
        rw [List.cons_prefix_cons]
        exact ⟨rfl, ih ((List.prefix_append_right_inj _).mp hbytes) (by omega) hlater⟩

theorem prefix_of_decodeStrict {text head : Str} {bytes : Bytes} (hbytes : bytes <+: encode text)
    (hdecode : decodeStrict bytes = some head) : head <+: text := by
  have hsome : ∀ (l : List (Option Char)) (cs : Str), l.mapM id = some cs → l = cs.map some := by
    intro l
    induction l with
    | nil => intro cs h; cases h; rfl
    | cons chunk rest ih =>
      intro cs h
      rw [List.mapM_cons] at h
      obtain ⟨c, hc, h⟩ := Option.bind_eq_some_iff.mp h
      obtain ⟨ds, hds, h⟩ := Option.bind_eq_some_iff.mp h
      cases h
      rw [ih ds hds, List.map_cons]
      exact congrArg (· :: _) hc
  exact prefix_of_chunks hbytes le_rfl (hsome _ _ hdecode)

end Library.Utf8
