import Mathlib
import Tariff.Url.Percent
/-
  Tariff.Proofs.Url.Escape — what stands in an address for a text.

  Escaping a text does not change the bytes that are read from it (`unescapedBytes_escape`), so a
  text is read back from what is written for it if and only if nothing in it looks like an escaped
  byte (`unescape?_eq_self_iff`). A text that is read has at most as many characters as what it was
  read from (`length_le_of_unescape?`).
-/

namespace Tariff

/-! ## Bytes of characters -/

namespace Text

theorem hexValue?_hexDigitUpper {n : Nat} (h : n < 16) : hexValue? (hexDigitUpper n) = some n := by
  revert n
  decide

theorem bounds_of_hexValue? {c : Char} (h : (hexValue? c).isSome = true) : 48 ≤ c.toNat ∧ c.toNat ≤ 102 := by
  have hval : c.toNat = c.val.toNat := rfl
  have hdigits : '0'.val.toNat = 48 ∧ '9'.val.toNat = 57 ∧ 'a'.val.toNat = 97 ∧ 'f'.val.toNat = 102 ∧
      'A'.val.toNat = 65 ∧ 'F'.val.toNat = 70 := by decide
  simp only [hexValue?, Char.isDigit, Char.le_def, Bool.and_eq_true, decide_eq_true_eq, ge_iff_le,
    UInt32.le_iff_toNat_le] at h
  split at h
  · omega
  · split at h
    · omega
    · split at h
      · omega
      · cases h

theorem toNat_lt (c : Char) : c.toNat < 0x110000 := by
  have h := c.valid
  simp only [UInt32.isValidChar, Nat.isValidChar] at h
  have : c.toNat = c.val.toNat := rfl
  omega

theorem utf8Bytes_lt {c : Char} {b : Nat} (h : b ∈ utf8Bytes c) : b < 256 := by
  have hc := toNat_lt c
  unfold utf8Bytes at h
  simp only at h
  split at h
  · simp at h
    omega
  · split at h
    · simp at h
      omega
    · split at h <;> simp at h <;> omega

/-- A byte that a character begins with. -/
def isLead (b : Nat) : Bool := b < 0x80 || 0xc0 ≤ b

/-- A character has one byte that a character begins with. -/
theorem countP_isLead_utf8Bytes (c : Char) : (utf8Bytes c).countP isLead = 1 := by
  have hc := toNat_lt c
  have more : ∀ n : Nat, isLead (0x80 + n % 64) = false := by
    intro n
    simp only [isLead, Bool.or_eq_false_iff, decide_eq_false_iff_not]
    omega
  have first : ∀ k n : Nat, 0xc0 ≤ k → isLead (k + n) = true := by
    intro k n hk
    simp only [isLead, Bool.or_eq_true, decide_eq_true_eq]
    omega
  unfold utf8Bytes
  simp only
  split
  · rename_i h
    simp [isLead, h]
  · split
    · simp [more, first]
    · split
      · simp [more, first]
      · simp [more, first]

theorem countP_isLead_utf8 (cs : List Char) : (utf8 cs).countP isLead = cs.length := by
  induction cs with
  | nil => rfl
  | cons c cs ih =>
    have hcons : utf8 (c :: cs) = utf8Bytes c ++ utf8 cs := rfl
    rw [hcons, List.countP_append, countP_isLead_utf8Bytes, ih, List.length_cons, Nat.add_comm]

/-- How many bytes follow the first one of a character. -/
theorem leadByte?_utf8Bytes (c : Char) :
    ∃ b more bits, utf8Bytes c = b :: more ∧ leadByte? b = some (more.length, bits) ∧
      more.foldl (fun n b => n * 64 + b % 64) bits = c.toNat := by
  have hc := toNat_lt c
  unfold utf8Bytes
  simp only
  split
  · rename_i h
    exact ⟨_, _, c.toNat, rfl, by simp [leadByte?, h], rfl⟩
  · split
    · rename_i h1 h2
      refine ⟨_, _, (0xc0 + c.toNat / 64) % 32, rfl, ?_, ?_⟩
      · rw [leadByte?, if_neg (by omega), if_pos (by omega)]
        rfl
      · simp only [List.foldl_cons, List.foldl_nil]
        omega
    · split
      · rename_i h1 h2 h3
        refine ⟨_, _, (0xe0 + c.toNat / 4096) % 16, rfl, ?_, ?_⟩
        · rw [leadByte?, if_neg (by omega), if_neg (by omega), if_pos (by omega)]
          rfl
        · simp only [List.foldl_cons, List.foldl_nil]
          omega
      · rename_i h1 h2 h3
        refine ⟨_, _, (0xf0 + c.toNat / 262144) % 8, rfl, ?_, ?_⟩
        · rw [leadByte?, if_neg (by omega), if_neg (by omega), if_neg (by omega), if_pos (by omega)]
          rfl
        · simp only [List.foldl_cons, List.foldl_nil]
          omega

theorem charOfBytes?_utf8Bytes (c : Char) : charOfBytes? (utf8Bytes c) = some c := by
  obtain ⟨b, more, bits, hbytes, hlead, hfold⟩ := leadByte?_utf8Bytes c
  have hvalid : c.toNat.isValidChar := c.valid
  rw [hbytes, charOfBytes?, hlead]
  simp only [Option.bind_some, hfold, Char.ofNat_toNat, hbytes]
  rw [if_pos ⟨trivial, hvalid, trivial⟩]

theorem utf8Bytes_of_charOfBytes? {bytes : List Nat} {c : Char} (h : charOfBytes? bytes = some c) :
    utf8Bytes c = bytes := by
  unfold charOfBytes? at h
  split at h
  · cases h
  · obtain ⟨⟨count, bits⟩, -, h⟩ := Option.bind_eq_some_iff.1 h
    simp only at h
    split at h
    · rename_i hok
      rw [← Option.some.inj h]
      exact hok.2.2
    · cases h

theorem ofUtf8?_utf8 (cs : List Char) : ∀ fuel, (utf8 cs).length ≤ fuel → ofUtf8? fuel (utf8 cs) = some cs := by
  induction cs with
  | nil =>
    intro fuel _
    cases fuel <;> rfl
  | cons c cs ih =>
    intro fuel hfuel
    obtain ⟨b, more, bits, hbytes, hlead, -⟩ := leadByte?_utf8Bytes c
    have hcons : utf8 (c :: cs) = b :: (more ++ utf8 cs) := by
      rw [utf8, List.flatMap_cons, hbytes]
      rfl
    rw [hcons] at hfuel ⊢
    cases fuel with
    | zero => simp at hfuel
    | succ fuel =>
      have hrest : (utf8 cs).length ≤ fuel := by
        simp only [List.length_cons, List.length_append] at hfuel
        omega
      rw [ofUtf8?, hlead]
      simp only [Option.bind_some, List.take_left, List.drop_left, ← hbytes, charOfBytes?_utf8Bytes,
        ih fuel hrest, Option.map_some]

theorem utf8_of_ofUtf8? {fuel : Nat} {bytes : List Nat} {cs : List Char} (h : ofUtf8? fuel bytes = some cs) :
    utf8 cs = bytes := by
  induction fuel generalizing bytes cs with
  | zero =>
    cases bytes with
    | nil =>
      cases h
      rfl
    | cons => cases h
  | succ fuel ih =>
    cases bytes with
    | nil =>
      cases h
      rfl
    | cons b bytes =>
      obtain ⟨⟨count, bits⟩, -, h⟩ := Option.bind_eq_some_iff.1 h
      obtain ⟨c, hc, h⟩ := Option.bind_eq_some_iff.1 h
      obtain ⟨rest, hrest, rfl⟩ := Option.map_eq_some_iff.1 h
      calc
        utf8 (c :: rest) = utf8Bytes c ++ utf8 rest := rfl
        _ = (b :: bytes.take count) ++ bytes.drop count := by rw [utf8Bytes_of_charOfBytes? hc, ih hrest]
        _ = b :: bytes := by rw [List.cons_append, List.take_append_drop]

/-- Bytes are the encoding of a text if and only if the text is decoded from them. -/
theorem decodeUtf8?_eq_some_iff {bytes : List Nat} {cs : List Char} :
    decodeUtf8? bytes = some cs ↔ utf8 cs = bytes := by
  constructor
  · exact utf8_of_ofUtf8?
  · rintro rfl
    exact ofUtf8?_utf8 cs _ (Nat.le_refl _)

end Text

/-! ## Escapes -/

namespace Url

open Text

/-- The text begins with what looks like an escaped byte. -/
def startsEscape : List Char → Bool
  | '%' :: a :: b :: _ => (hexValue? a).isSome && (hexValue? b).isSome
  | _ => false

/-- Something in the text looks like an escaped byte. -/
def hasEscape : List Char → Bool
  | [] => false
  | c :: cs => startsEscape (c :: cs) || hasEscape cs

theorem unescapedBytes_cons {c : Char} {cs : List Char} (h : startsEscape (c :: cs) = false) :
    unescapedBytes (c :: cs) = utf8Bytes c ++ unescapedBytes cs := by
  by_cases hc : c = '%'
  · subst hc
    match cs, h with
    | [], _ => simp [unescapedBytes]
    | [a], _ => simp [unescapedBytes]
    | a :: b :: cs, h =>
      rw [unescapedBytes]
      cases ha : hexValue? a with
      | none => rfl
      | some x =>
        cases hb : hexValue? b with
        | none => rfl
        | some y => simp [startsEscape, ha, hb] at h
  · rw [unescapedBytes]
    rintro a b cs rfl
    exact absurd rfl hc

/-- A text begins with an escaped byte, or with a character that stands for itself. -/
@[elab_as_elim]
theorem induction_escapes {motive : List Char → Prop} (nil : motive [])
    (escaped : ∀ a b x y cs, hexValue? a = some x → hexValue? b = some y → motive cs → motive ('%' :: a :: b :: cs))
    (plain : ∀ c cs, startsEscape (c :: cs) = false → motive cs → motive (c :: cs)) (cs : List Char) : motive cs := by
  fun_induction unescapedBytes cs with
  | case1 a b cs x y hb ha ih => exact escaped a b x y cs ha hb ih
  | case2 a b cs hnot ih =>
    apply plain _ _ _ ih
    cases ha : hexValue? a with
    | none => simp [startsEscape, ha]
    | some x =>
      cases hb : hexValue? b with
      | none => simp [startsEscape, hb]
      | some y => exact absurd hb (hnot x y ha)
  | case3 c cs hnot ih =>
    apply plain _ _ _ ih
    unfold startsEscape
    split
    · rename_i heq
      cases heq
      exact absurd rfl (hnot _ _ _ rfl)
    · rfl
  | case4 => exact nil

/-- What is not escaped may look like part of an escaped byte. -/
def Sparing (p : Char → Bool) : Prop := p '%' = false ∧ ∀ c, (hexValue? c).isSome = true → p c = false

variable {p : Char → Bool}

theorem escape_cons (p : Char → Bool) (c : Char) (cs : List Char) :
    escape p (c :: cs) = (if p c then (utf8Bytes c).flatMap escapedByte else [c]) ++ escape p cs :=
  List.flatMap_cons

theorem unescapedBytes_escapedBytes {bs : List Nat} (h : ∀ b ∈ bs, b < 256) (cs : List Char) :
    unescapedBytes (bs.flatMap escapedByte ++ cs) = bs ++ unescapedBytes cs := by
  induction bs with
  | nil => rfl
  | cons b bs ih =>
    have hb : b < 256 := h b List.mem_cons_self
    have hhigh := hexValue?_hexDigitUpper (show b / 16 < 16 by omega)
    have hlow := hexValue?_hexDigitUpper (show b % 16 < 16 by omega)
    show unescapedBytes ('%' :: hexDigitUpper (b / 16) :: hexDigitUpper (b % 16) :: (bs.flatMap escapedByte ++ cs)) = _
    rw [unescapedBytes, hhigh, hlow, ih fun b hb => h b (List.mem_cons_of_mem _ hb)]
    simp only [List.cons_append, List.cons.injEq, and_true]
    omega

/-- A digit at the front of what is written is a digit of the text. -/
theorem of_escape_eq_cons {cs rest : List Char} {a : Char} (h : escape p cs = a :: rest)
    (ha : (hexValue? a).isSome = true) : ∃ cs', cs = a :: cs' ∧ rest = escape p cs' := by
  cases cs with
  | nil => cases h
  | cons c cs =>
    rw [escape_cons] at h
    split at h
    · obtain ⟨b, more, bits, hbytes, -⟩ := leadByte?_utf8Bytes c
      rw [hbytes] at h
      cases h
      simp [hexValue?] at ha
    · cases h
      exact ⟨cs, rfl, rfl⟩

theorem startsEscape_escape {c : Char} {cs : List Char} (h : startsEscape (c :: cs) = false) :
    startsEscape (c :: escape p cs) = false := by
  by_cases hc : c = '%'
  · subst hc
    rw [Bool.eq_false_iff]
    intro hstarts
    unfold startsEscape at hstarts
    split at hstarts
    · rename_i a b rest heq
      rw [Bool.and_eq_true] at hstarts
      obtain ⟨cs', rfl, hrest⟩ := of_escape_eq_cons (List.cons.inj heq).2 hstarts.1
      obtain ⟨cs'', rfl, -⟩ := of_escape_eq_cons hrest.symm hstarts.2
      simp [startsEscape, hstarts] at h
    · cases hstarts
  · unfold startsEscape
    split
    · rename_i heq
      exact absurd (List.cons.inj heq).1 hc
    · rfl

theorem unescapedBytes_escape_cons {c : Char} {cs : List Char}
    (h : startsEscape (c :: cs) = false) (ih : unescapedBytes (escape p cs) = unescapedBytes cs) :
    unescapedBytes (escape p (c :: cs)) = unescapedBytes (c :: cs) := by
  rw [unescapedBytes_cons h, escape_cons, ← ih]
  split
  · exact unescapedBytes_escapedBytes (fun b hb => utf8Bytes_lt hb) _
  · exact unescapedBytes_cons (startsEscape_escape h)

/-- Escaping does not change what is read. -/
theorem unescapedBytes_escape (hp : Sparing p) (cs : List Char) :
    unescapedBytes (escape p cs) = unescapedBytes cs := by
  induction cs using induction_escapes with
  | nil => rfl
  | escaped a b x y cs ha hb ih =>
    have hpa : p a = false := hp.2 a (by simp [ha])
    have hpb : p b = false := hp.2 b (by simp [hb])
    have hescape : escape p ('%' :: a :: b :: cs) = '%' :: a :: b :: escape p cs := by
      simp [escape_cons, hp.1, hpa, hpb]
    rw [hescape, unescapedBytes, unescapedBytes, ha, hb, ih]
  | plain c cs h ih => exact unescapedBytes_escape_cons h ih

theorem unescape?_escape (hp : Sparing p) (cs : List Char) : unescape? (escape p cs) = unescape? cs := by
  rw [unescape?, unescapedBytes_escape hp, unescape?]

/-- Every character of a text gives at most one character, and every escaped byte takes two away. -/
theorem countP_isLead_unescapedBytes (cs : List Char) :
    (unescapedBytes cs).countP isLead + (if hasEscape cs then 1 else 0) ≤ cs.length := by
  induction cs using induction_escapes with
  | nil => simp [unescapedBytes, hasEscape]
  | escaped a b x y cs ha hb ih =>
    have hbyte : (if isLead (x * 16 + y) = true then 1 else 0) ≤ 1 := by split <;> omega
    have hone : ∀ c : Bool, (if c = true then 1 else 0) ≤ 1 := by decide
    have hhere := hone (hasEscape ('%' :: a :: b :: cs))
    rw [unescapedBytes, ha, hb]
    simp only [List.countP_cons, List.length_cons]
    omega
  | plain c cs h ih =>
    rw [unescapedBytes_cons h, List.countP_append, countP_isLead_utf8Bytes, List.length_cons, hasEscape, h,
      Bool.false_or]
    omega

theorem unescapedBytes_of_not_hasEscape {cs : List Char} (h : hasEscape cs = false) :
    unescapedBytes cs = utf8 cs := by
  induction cs with
  | nil => simp [unescapedBytes, utf8]
  | cons c cs ih =>
    rw [hasEscape, Bool.or_eq_false_iff] at h
    rw [unescapedBytes_cons h.1, ih h.2]
    rfl

theorem unescape?_eq_some_iff {cs text : List Char} : unescape? cs = some text ↔ utf8 text = unescapedBytes cs :=
  decodeUtf8?_eq_some_iff

/-- What is read is not longer than what it is read from. -/
theorem length_le_of_unescape? {cs text : List Char} (h : unescape? cs = some text) : text.length ≤ cs.length := by
  rw [unescape?_eq_some_iff] at h
  have hcount := countP_isLead_unescapedBytes cs
  rw [← h, countP_isLead_utf8] at hcount
  omega

/-- A text is what is read from it if and only if nothing in it looks like an escaped byte. -/
theorem unescape?_eq_self_iff {cs : List Char} : unescape? cs = some cs ↔ hasEscape cs = false := by
  rw [unescape?_eq_some_iff]
  constructor
  · intro h
    have hcount := countP_isLead_unescapedBytes cs
    rw [← h, countP_isLead_utf8] at hcount
    cases hescape : hasEscape cs with
    | false => rfl
    | true =>
      rw [hescape, if_pos rfl] at hcount
      omega
  · intro h
    rw [unescapedBytes_of_not_hasEscape h]

theorem sparing_path : Sparing escapedInPath := by
  refine ⟨by decide, ?_⟩
  intro c hc
  rw [Bool.eq_false_iff]
  intro hescaped
  simp only [escapedInPath, isForeign, Bool.or_eq_true, decide_eq_true_eq, List.contains_iff_mem] at hescaped
  rcases hescaped with hforeign | hlisted
  · have hbounds := bounds_of_hexValue? hc
    omega
  · simp only [List.mem_cons, List.not_mem_nil, or_false] at hlisted
    rcases hlisted with rfl | rfl | rfl | rfl | rfl | rfl | rfl | rfl | rfl | rfl <;> revert hc <;> decide

end Url

end Tariff
