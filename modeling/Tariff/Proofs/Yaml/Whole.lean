import Mathlib
import Tariff.Yaml.Scalar
import Tariff.Proofs.Binary64.Whole
import Tariff.Proofs.Proposal.WholeAmount
/-
  Tariff.Proofs.Yaml.Whole — what an integer means as a plain scalar.

  An integer is a sign and a magnitude, and the magnitude is written in decimal digits or behind the mark of another
  base (`integer?_cases`, `magnitude?_cases`). Of at most 128 bits it is an integer. A longer one is a floating-point
  number that stands for it if its digits are decimal, and a text if they are not or the number is too large
  (`plainDatum_whole`).
-/

namespace Tariff.Yaml

open Binary64 (Stands)

/-! ## Digits -/

theorem digit?_ten {c : Char} {d : Nat} (h : digit? 10 c = some d) : c.isDigit = true ∧ d = c.toNat - 48 := by
  obtain ⟨hhex, hlt⟩ := Option.filter_eq_some_iff.1 h
  have hlt : d < 10 := by simpa using hlt
  unfold Text.hexValue? at hhex
  split at hhex
  · rename_i hdigit
    cases hhex
    exact ⟨hdigit, rfl⟩
  · split at hhex
    · rename_i hlower
      have h97 : 97 ≤ c.toNat := hlower.1
      cases hhex
      omega
    · split at hhex
      · rename_i hupper
        have h65 : 65 ≤ c.toNat := hupper.1
        cases hhex
        omega
      · cases hhex

theorem digitsOf?_ten {cs : List Char} {k : Nat} (h : digitsOf? 10 cs = some k) :
    cs ≠ [] ∧ (∀ c ∈ cs, c.isDigit = true) ∧ digitsAfter 0 cs = k := by
  have hall : ∀ (cs : List Char) (vs : List Nat) (m : Nat), cs.mapM (digit? 10) = some vs →
      (∀ c ∈ cs, c.isDigit = true) ∧ vs.foldl (fun n d => n * 10 + d) m = digitsAfter m cs := by
    intro cs
    induction cs with
    | nil =>
      intro vs m hvs
      cases hvs
      exact ⟨by simp, rfl⟩
    | cons c cs ih =>
      intro vs m hvs
      rw [List.mapM_cons] at hvs
      obtain ⟨d, hd, hvs⟩ := Option.bind_eq_some_iff.1 hvs
      obtain ⟨ds, hds, hvs⟩ := Option.bind_eq_some_iff.1 hvs
      cases hvs
      obtain ⟨hc, rfl⟩ := digit?_ten hd
      obtain ⟨hcs, hfold⟩ := ih ds (m * 10 + (c.toNat - 48)) hds
      exact ⟨List.forall_mem_cons.2 ⟨hc, hcs⟩, by rw [List.foldl_cons, hfold, digitsAfter_cons]⟩
  unfold digitsOf? at h
  split at h
  · cases h
  · rename_i hne
    obtain ⟨vs, hvs, hk⟩ := Option.bind_eq_some_iff.1 h
    cases hk
    obtain ⟨hdigits, hfold⟩ := hall cs vs 0 hvs
    exact ⟨by simpa using hne, hdigits, hfold.symm⟩

/-! ## Integers -/

/-- The mark of a base. -/
def IsMark (c : Char) : Prop := c = 'x' ∨ c = 'o' ∨ c = 'b'

/-- A magnitude is decimal digits, without a zero in front of others, or stands behind the mark of a base. -/
theorem magnitude?_cases {cs : List Char} {k : Nat} (h : magnitude? cs = some k) :
    (∃ mark ds, cs = '0' :: mark :: ds ∧ IsMark mark) ∨
      (cs ≠ [] ∧ (∀ c ∈ cs, c.isDigit = true) ∧ digitsAfter 0 cs = k ∧ (cs.head? = some '0' → k = 0)) := by
  unfold magnitude? at h
  split at h
  · exact .inl ⟨'x', _, rfl, .inl rfl⟩
  · exact .inl ⟨'o', _, rfl, .inr (.inl rfl)⟩
  · exact .inl ⟨'b', _, rfl, .inr (.inr rfl)⟩
  · split at h
    · cases h
    · rename_i hpadded
      obtain ⟨hne, hdigits, hk⟩ := digitsOf?_ten h
      refine .inr ⟨hne, hdigits, hk, fun hzero => ?_⟩
      obtain ⟨more, rfl⟩ : ∃ more, cs = '0' :: more := by
        obtain ⟨c, more, rfl⟩ := List.exists_cons_of_ne_nil hne
        obtain rfl : c = '0' := by simpa using hzero
        exact ⟨more, rfl⟩
      cases more with
      | nil => exact hk.symm
      | cons d more =>
        refine absurd ?_ hpadded
        show ((d :: more).all Char.isDigit) = true
        exact List.all_eq_true.2 fun c hc => hdigits c (List.mem_cons_of_mem _ hc)

/-- An integer is a sign and a magnitude. -/
theorem integer?_cases {cs : List Char} {n : Int} (h : integer? cs = some n) : ∃ (sign : Option Char) (body : List Char)
    (k : Nat), cs = sign.toList ++ body ∧ (∀ c ∈ sign, c = '+' ∨ c = '-') ∧ magnitude? body = some k ∧
      n = signed (sign == some '-') k := by
  have hcast : ∀ {ds : List Char} {i : Int}, (magnitude? ds >>= fun k => pure (k : Int)) = some i →
      ∃ k : ℕ, magnitude? ds = some k ∧ i = k := by
    intro ds i hi
    obtain ⟨k, hk, hi⟩ := Option.bind_eq_some_iff.1 hi
    cases hi
    exact ⟨k, hk, rfl⟩
  unfold integer? at h
  split at h
  · obtain ⟨i, hi, rfl⟩ := Option.map_eq_some_iff.1 h
    obtain ⟨k, hk, rfl⟩ := hcast hi
    exact ⟨some '-', _, k, rfl, by simp, hk, rfl⟩
  · obtain ⟨i, hi, rfl⟩ := Option.map_eq_some_iff.1 h
    obtain ⟨k, hk, rfl⟩ := hcast hi
    exact ⟨some '+', _, k, rfl, by simp, hk, rfl⟩
  · obtain ⟨i, hi, rfl⟩ := Option.map_eq_some_iff.1 h
    obtain ⟨k, hk, rfl⟩ := hcast hi
    exact ⟨none, _, k, rfl, by simp, hk, rfl⟩

/-! ## Floating-point numbers -/

open Binary64 in
/-- Decimal digits are read as a number that stands for them, or that is too large. -/
theorem readMagnitude?_digits (negative : Bool) {ds : List Char} {k : Nat} (hne : ds ≠ [])
    (hds : ∀ c ∈ ds, c.isDigit = true) (hk : digitsAfter 0 ds = k) (h0 : 0 < k) (hzero : ds.head? = some '0' → k = 0) :
    ∃ z, readMagnitude? negative ds = some z ∧ (z.Stands negative k ∨ z = .infinite negative) := by
  obtain ⟨htake, hdrop⟩ := takeWhile_digits hds noDigit_nil
  rw [List.append_nil] at htake hdrop
  have hstrip : ds.dropWhile (· == '0') = ds := by
    obtain ⟨d, more, rfl⟩ := List.exists_cons_of_ne_nil hne
    have hd : d ≠ '0' := by
      rintro rfl
      have := hzero rfl
      omega
    rw [List.dropWhile_cons_of_neg (by simpa using hd)]
  have hvalue : digitsValue ds = k := hk
  have hexponent : readExponent? [] = some 0 := rfl
  have hread : readMagnitude? negative ds = some (ofDecimal negative k ds.length 0) := by
    simp only [readMagnitude?, htake, hdrop, List.append_nil, hexponent, Option.map_some, hstrip, hvalue]
    rw [if_neg (by simpa using hne)]
    rfl
  refine ⟨_, hread, ?_⟩
  rw [ofDecimal, if_neg h0.ne']
  by_cases hlong : exponentReach < 0 + ds.length
  · rw [if_pos hlong]
    exact .inr rfl
  · have hshort : ¬ (0 + (ds.length : ℤ) < -exponentReach) := by
      unfold exponentReach
      omega
    have hone : k * tenPow (0 : ℤ).toNat = k := Nat.mul_one k
    rw [if_neg hlong, if_neg hshort, if_pos le_rfl, hone]
    exact stands_ofRatio negative h0

/-- Behind a zero the mark of a base is no part of a floating-point number. -/
theorem readMagnitude?_marked (negative : Bool) {mark : Char} (ds : List Char) (h : IsMark mark) :
    Binary64.readMagnitude? negative ('0' :: mark :: ds) = none := by
  obtain ⟨hdigit, hpoint, he, hE⟩ : mark.isDigit = false ∧ mark ≠ '.' ∧ mark ≠ 'e' ∧ mark ≠ 'E' := by
    rcases h with rfl | rfl | rfl <;> decide
  have htake : ('0' :: mark :: ds).takeWhile Char.isDigit = ['0'] := by
    rw [List.takeWhile_cons_of_pos rfl, List.takeWhile_cons_of_neg (by simp [hdigit])]
  have hdrop : ('0' :: mark :: ds).dropWhile Char.isDigit = mark :: ds := by
    rw [List.dropWhile_cons_of_pos rfl, List.dropWhile_cons_of_neg (by simp [hdigit])]
  have hexponent : Binary64.readExponent? (mark :: ds) = none := by
    simp only [Binary64.readExponent?, he, hE, or_self, if_false]
  unfold Binary64.readMagnitude?
  simp only [htake, hdrop]
  split
  · rename_i heq
    exact absurd (List.cons.inj heq).1 hpoint
  · simp [hexponent]

/-- What starts with a digit, behind a sign or not, is read as a number of digits. -/
theorem float?_signed {sign : Option Char} {d : Char} (more : List Char) (hsign : ∀ c ∈ sign, c = '+' ∨ c = '-')
    (hd : d.isDigit = true) : float? (sign.toList ++ d :: more) =
      (Binary64.readMagnitude? (sign == some '-') (d :: more)).filter Binary64.isFinite := by
  have hother : ∀ c : Char, c.isDigit = false → d ≠ c := by
    rintro c hc rfl
    rw [hd] at hc
    cases hc
  have hpoint := hother '.' (by decide)
  have hplus := hother '+' (by decide)
  have hminus := hother '-' (by decide)
  -- no name of a number starts with a digit, or with a digit behind its sign
  have hname : ∀ {cs : List Char} {s : String}, cs.head? ≠ s.toList.head? → String.ofList cs ≠ s := by
    rintro cs s hne rfl
    exact hne (by rw [String.toList_ofList])
  have hdigit : ∀ s ∈ [".inf", ".Inf", ".INF"], String.ofList (d :: more) ≠ s := by
    intro s hs
    refine hname ?_
    simp only [List.mem_cons, List.not_mem_nil, or_false] at hs
    rcases hs with rfl | rfl | rfl <;> simpa using hpoint
  have hsigned : ∀ s ∈ [".inf", ".Inf", ".INF"], String.ofList ('-' :: d :: more) ≠ s := by
    intro s hs
    refine hname ?_
    simp only [List.mem_cons, List.not_mem_nil, or_false] at hs
    rcases hs with rfl | rfl | rfl <;> simp
  simp only [List.forall_mem_cons, List.not_mem_nil, false_imp_iff, implies_true, and_true] at hdigit hsigned
  have hread : Binary64.readFloat? (d :: more) =
      (Binary64.readMagnitude? false (d :: more)).filter Binary64.isFinite := by
    unfold Binary64.readFloat?
    split
    · rename_i heq
      exact absurd (List.cons.inj heq).1 hminus
    · rename_i heq
      exact absurd (List.cons.inj heq).1 hplus
    · rfl
  cases sign with
  | none => simp [float?, -String.ofList_cons, hdigit, hpoint, hminus, hplus, hread]
  | some c =>
    rcases hsign c rfl with rfl | rfl
    · simp [float?, -String.ofList_cons, hdigit, hminus, hplus, hread]
    · simp [float?, -String.ofList_cons, hsigned, hpoint, Binary64.readFloat?]

/-- An integer that is read as a floating-point number is read as one that stands for it. -/
theorem stands_of_float? {cs : List Char} {n : Int} {z : Binary64} (h : integer? cs = some n) (hn : n ≠ 0)
    (hz : float? cs = some z) : ∃ negative k, n = signed negative k ∧ z.Stands negative k := by
  obtain ⟨sign, body, k, rfl, hsign, hmagnitude, rfl⟩ := integer?_cases h
  have hk : 0 < k := by
    by_contra h0
    obtain rfl : k = 0 := by omega
    exact hn (by cases (sign == some '-') <;> rfl)
  rcases magnitude?_cases hmagnitude with ⟨mark, ds, rfl, hmark⟩ | ⟨hne, hdigits, hvalue, hzero⟩
  · rw [float?_signed (mark :: ds) hsign (by decide), readMagnitude?_marked _ ds hmark] at hz
    cases hz
  · obtain ⟨x, hread, hx⟩ := readMagnitude?_digits (sign == some '-') hne hdigits hvalue hk hzero
    obtain ⟨d, more, rfl⟩ := List.exists_cons_of_ne_nil hne
    rw [float?_signed more hsign (hdigits d List.mem_cons_self), hread] at hz
    obtain ⟨hsame, hfinite⟩ := Option.filter_eq_some_iff.1 hz
    cases hsame
    refine ⟨_, k, rfl, hx.resolve_right ?_⟩
    rintro rfl
    cases hfinite

/-- What is an integer is neither nothing nor a truth value. -/
theorem not_name_of_integer? {s : String} {n : Int} (h : integer? s.toList = some n) :
    (s.isEmpty || isNull s) = false ∧ bool? s = none := by
  have hne : ∀ t ∈ ["", "null", "Null", "NULL", "~", "true", "True", "TRUE", "false", "False", "FALSE"], s ≠ t := by
    intro t ht
    have hnone : integer? t.toList = none := by
      simp only [List.mem_cons, List.not_mem_nil, or_false] at ht
      rcases ht with rfl | rfl | rfl | rfl | rfl | rfl | rfl | rfl | rfl | rfl | rfl <;> decide +kernel
    rintro rfl
    rw [hnone] at h
    cases h
  simp only [List.forall_mem_cons, List.not_mem_nil, false_imp_iff, implies_true, and_true] at hne
  simp [isNull, bool?, hne]

/-- An integer is read as itself, if it has 64 bits; as a floating-point number that stands for it; as one that no
amount may be; or as a text, if it has more than 127 bits. -/
theorem plainDatum_whole {s : String} {n : Int} (h : integer? s.toList = some n) :
    (plainDatum s = .integer n ∧ -(2 ^ 63) ≤ n ∧ n < 2 ^ 64) ∨
      (∃ z negative k, plainDatum s = .float z ∧ n = signed negative k ∧ z.Stands negative k ∧ 2 ^ 63 < k) ∨
      plainDatum s = .wide n ∨ plainDatum s = .text s ∧ 2 ^ 127 ≤ |n| := by
  obtain ⟨hempty, hbool⟩ := not_name_of_integer? h
  have hread : readInteger? s = integerDatum? n := by rw [readInteger?, h, Option.bind_some]
  have h63 : (twoPow 63 : Int) = 2 ^ 63 := rfl
  have h64 : (twoPow 64 : Int) = 2 ^ 64 := rfl
  have h127 : (twoPow 127 : Int) = 2 ^ 127 := rfl
  have h128 : (twoPow 128 : Int) = 2 ^ 128 := rfl
  simp only [plainDatum, hempty, Bool.false_eq_true, if_false, hbool, hread, integerDatum?, h63, h64, h127, h128]
  by_cases hword : -(2 ^ 63) ≤ n ∧ n < 2 ^ 64
  · rw [if_pos hword]
    exact .inl ⟨rfl, hword⟩
  · rw [if_neg hword]
    by_cases hwide : -(2 ^ 127) ≤ n ∧ n < 2 ^ 128
    · rw [if_pos hwide]
      exact .inr (.inr (.inl rfl))
    · have hlarge : 2 ^ 127 ≤ |n| := by
        rcases abs_cases n with ⟨habs, hsign⟩ | ⟨habs, hsign⟩ <;> omega
      rw [if_neg hwide]
      dsimp only
      split
      · exact .inr (.inr (.inr ⟨rfl, hlarge⟩))
      · cases hz : float? s.toList with
        | none => exact .inr (.inr (.inr ⟨rfl, hlarge⟩))
        | some z =>
          obtain ⟨negative, k, rfl, hstands⟩ := stands_of_float? h (by omega) hz
          refine .inr (.inl ⟨z, negative, k, rfl, rfl, hstands, ?_⟩)
          cases negative with
          | false =>
            have hsigned : signed false k = k := rfl
            omega
          | true =>
            have hsigned : signed true k = -k := rfl
            omega

end Tariff.Yaml
