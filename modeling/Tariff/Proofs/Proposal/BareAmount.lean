import Mathlib
import Tariff.Json.Source
import Tariff.Yaml.Source
import Tariff.Proofs.Json.Whole
import Tariff.Proofs.Proposal.AmountField
import Tariff.Proofs.Text.Codes
import Tariff.Proofs.Yaml.Whole
/-
  Tariff.Proofs.Proposal.BareAmount — an integer without quotes as the amount of a proposal.

  A document may write the amount as a bare number, and one of 63 bits means what it means in quotes. A longer
  integer is taken as a floating-point number first, so the text of the amount is that of another integer, within one
  part in 2^50 of it (`HeardAs`): the proposal is decided as with the integer in quotes if the two are one after all,
  or both too large for an amount, and then only (`bare_amount_is_near_the_quoted`). With 2^63 for its amount a
  proposal is another one (`bare_amount_is_not_the_quoted`).
-/

namespace Tariff

open Binary64 (minus)

/-! ## What is heard -/

namespace Proposal

/-- An integer is written, and this text stands for another one near it. -/
structure HeardAs (n n' : Int) (s : String) : Prop where
  reads : readAmount? s = readAmount? (toString n')
  exact : -(2 ^ 63) ≤ n → n < 2 ^ 63 → n' = n
  near : |n' - n| * 2 ^ 50 ≤ |n|
  same_iff : SameAmount s (toString n) ↔ n' = n ∨ 2 ^ 96 ≤ |n| ∧ 2 ^ 96 ≤ |n'|

variable {n n' : Int} {s : String}

theorem heardAs_of_reads (hs : readAmount? s = Decimal.ofInt? n') (hexact : -(2 ^ 63) ≤ n → n < 2 ^ 63 → n' = n)
    (hnear : |n' - n| * 2 ^ 50 ≤ |n|) : HeardAs n n' s where
  reads := hs.trans (readAmount?_toString n').symm
  exact := hexact
  near := hnear
  same_iff := by rw [sameAmount_iff, hs, readAmount?_toString, ofInt?_eq_iff]

theorem heardAs_self (hs : readAmount? s = Decimal.ofInt? n) : HeardAs n n s :=
  heardAs_of_reads hs (fun _ _ => rfl) (by simp)

theorem heardAs_toString (n : Int) : HeardAs n n (toString n) := heardAs_self (readAmount?_toString n)

theorem not_word_of_lt {negative : Bool} {k : Nat} (h : 2 ^ 63 < k) :
    ¬(-(2 ^ 63) ≤ signed negative k ∧ signed negative k < 2 ^ 63) := by
  cases negative with
  | false =>
    have hsigned : signed false k = k := rfl
    omega
  | true =>
    have hsigned : signed true k = -k := rfl
    omega

/-- The text of a floating-point number that stands for a large integer. -/
theorem heardAs_of_stands {z : Binary64} {negative : Bool} {k : Nat} (hz : z.Stands negative k)
    (hlarge : ¬(-(2 ^ 63) ≤ signed negative k ∧ signed negative k < 2 ^ 63)) :
    ∃ n', HeardAs (signed negative k) n' z.positional := by
  have hk : 2 ^ 63 ≤ k := by
    cases negative with
    | false =>
      simp only [signed, Bool.false_eq_true, if_false] at hlarge
      omega
    | true =>
      simp only [signed, if_true] at hlarge
      omega
  obtain ⟨N, -, htext, hnear⟩ := hz.positional (by omega)
  refine ⟨signed negative N, heardAs_of_reads ?_ (fun hlow hhigh => absurd ⟨hlow, hhigh⟩ hlarge) ?_⟩
  · rw [htext, readAmount?_minus_digits]
  · rw [signed_sub_signed, abs_signed]
    exact hnear

/-- An integer of 64 bits is taken as it is, or as a floating-point number. -/
theorem heardAs_integer (hlow : -(2 ^ 63) ≤ n) (hhigh : n < 2 ^ 64) (h : typedAmount? (.integer n) = some s) :
    ∃ n', HeardAs n n' s := by
  rw [typedAmount?, show (twoPow 63 : Int) = 2 ^ 63 from rfl] at h
  split at h
  · cases h
    exact ⟨n, heardAs_toString n⟩
  · rename_i hlarge
    cases h
    obtain ⟨k, rfl⟩ : ∃ k : ℕ, n = k := ⟨n.toNat, by omega⟩
    have hz := Binary64.stands_ofRatio_of_le (k := k) false (by omega) (by omega)
    have hofInt : Binary64.ofInt k = Binary64.ofRatio false k 1 := by
      rw [Binary64.ofInt, decide_eq_false (by omega), Int.natAbs_natCast]
    rw [hofInt]
    exact heardAs_of_stands hz hlarge

end Proposal

/-! ## Integers in JSON -/

open Proposal (Holds HeardAs ReadsAmount decodeAmount exists_holds_positions typedAmount?)

/-- What is read of an integer: a sign, and digits with no zero in front. -/
def JsonDraft.Writes (x : JsonDraft) (n : Int) : Prop :=
  ∃ negative ds, IsWhole ds ∧ n = signed negative (digitsAfter 0 ds) ∧
    x = (ofText (String.ofList (minus negative ++ ds))).1

namespace JsonNode

/-- The node is a proposal with this integer, without quotes, for its amount. -/
inductive BareAmount (n : Int) : JsonNode → Prop
  | member {members : List (Option String × JsonDraft)} {x : JsonDraft} {closed : Bool} {levels : Nat} {inHand : Bool} :
      (some "amount", x) ∈ members → x.Writes n → BareAmount n ⟨.object members closed, levels, inHand⟩
  | item {first x : JsonDraft} {rest : List JsonDraft} {closed : Bool} {levels : Nat} {inHand : Bool} :
      x.Writes n → BareAmount n ⟨.array (first :: x :: rest) closed, levels, inHand⟩

/-- The second node is the first one with this text in quotes for its amount. -/
inductive Requoted (t : String) : JsonNode → JsonNode → Prop
  | member {before after : List (Option String × JsonDraft)} {x : JsonDraft} {closed : Bool} {levels : Nat}
      {inHand : Bool} : Requoted t ⟨.object (before ++ (some "amount", x) :: after) closed, levels, inHand⟩
        ⟨.object (before ++ (some "amount", .string (some t)) :: after) closed, levels, inHand⟩
  | item {first x : JsonDraft} {rest : List JsonDraft} {closed : Bool} {levels : Nat} {inHand : Bool} :
      Requoted t ⟨.array (first :: x :: rest) closed, levels, inHand⟩
        ⟨.array (first :: .string (some t) :: rest) closed, levels, inHand⟩

theorem heardAs_of_writes {x : JsonDraft} {n : Int} {s : String} {levels : Nat} {inHand : Bool} (hx : x.Writes n)
    (h : decodeAmount (⟨x, levels, inHand⟩ : JsonNode) = .ok s) : ∃ n', HeardAs n n' s := by
  obtain ⟨negative, ds, hds, rfl, rfl⟩ := hx
  obtain ⟨v, hv, hs⟩ := Proposal.decodeAmount_eq_ok_iff.1 h
  rw [JsonDraft.ofText_integral negative hds] at hv
  cases hnumber : JsonDraft.numberOf? negative ds [] none with
  | none =>
    rw [hnumber] at hv
    cases hv
  | some w =>
    rw [hnumber] at hv
    rcases JsonDraft.numberOf?_whole hds.isDigit hnumber with ⟨rfl, hlow, hhigh⟩ | ⟨hzero, rfl⟩ | ⟨z, rfl, hz, hlarge⟩
    · cases hv
      exact Proposal.heardAs_integer hlow hhigh hs
    · cases hv
      cases hs
      have hsigned : signed negative (digitsAfter 0 ds) = 0 := by rw [hzero]; cases negative <;> rfl
      rw [hsigned]
      exact ⟨0, Proposal.heardAs_self (by decide +kernel)⟩
    · cases hv
      cases hs
      exact Proposal.heardAs_of_stands hz (Proposal.not_word_of_lt hlarge)

section
variable {closed : Bool} {levels : Nat} {inHand : Bool}

theorem exists_record_of_object (before after : List (Option String × JsonDraft)) :
    ∃ record : JsonNode → Except DecodeError Proposal.Partial, ReadsAmount record ∧ ∀ x, Holds (⟨.object (before ++ (some "amount", x) :: after) closed, levels, inHand⟩ : JsonNode)
      (record ⟨x, levels - 1, inHand⟩) := by
  let node : JsonNode := ⟨.object before closed, levels, inHand⟩
  refine ⟨_, Proposal.readsAmount_members (before.map node.entry) (after.map node.entry) (endingOf closed), fun x => ?_⟩
  refine Proposal.holds_members fun title => ?_
  show Except.ok (Layout.members ((before ++ (some "amount", x) :: after).map node.entry) (endingOf closed)) = _
  rw [List.map_append, List.map_cons]
  rfl

theorem exists_record_of_array (first : JsonDraft) (rest : List JsonDraft) :
    ∃ record : JsonNode → Except DecodeError Proposal.Partial, ReadsAmount record ∧ ∀ x, Holds (⟨.array (first :: x :: rest) closed, levels, inHand⟩ : JsonNode) (record ⟨x, levels - 1, inHand⟩) := by
  let node : JsonNode := ⟨.array (first :: first :: rest) closed, levels, inHand⟩
  obtain ⟨tooShort, hholds⟩ := @exists_holds_positions JsonNode _
  refine ⟨_, Proposal.readsAmount_positions tooShort (endingOf closed) (node.surplus (rest.length + 2)) (node.inner first)
    (rest.map node.inner) _, fun x => hholds fun title => rfl⟩

end

variable {n : Int} {t : String} {d d' : JsonNode} {p : Proposal}

theorem heardAs_of_bareAmount (hd : d.BareAmount n) (h : Proposal.decode d = .ok p) : ∃ n', HeardAs n n' p.amount := by
  cases hd with
  | member hmem hx =>
    obtain ⟨before, after, rfl⟩ := List.append_of_mem hmem
    obtain ⟨record, hreads, hholds⟩ := exists_record_of_object before after
    exact heardAs_of_writes hx (hreads.decode (hholds _) h).1
  | item hx =>
    obtain ⟨record, hreads, hholds⟩ := exists_record_of_array _ _
    exact heardAs_of_writes hx (hreads.decode (hholds _) h).1

theorem decode_requoted (hd : d.Requoted t d') (h : Proposal.decode d = .ok p) : Proposal.decode d' = .ok { p with amount := t } := by
  cases hd with
  | member =>
    obtain ⟨record, hreads, hholds⟩ := exists_record_of_object _ _
    exact (hreads.decode (hholds _) h).2 _ _ _ (hholds _) rfl
  | item =>
    obtain ⟨record, hreads, hholds⟩ := exists_record_of_array _ _
    exact (hreads.decode (hholds _) h).2 _ _ _ (hholds _) rfl

end JsonNode

/-! ## Integers in YAML -/

/-- The draft is this scalar, an alias followed. -/
def YamlDraft.IsScalar (x : YamlDraft) (anchors : List (Nat × YamlDraft)) (s : Yaml.Scalar) : Prop :=
  ∃ anchor, Yaml.resolve anchors x = .scalar anchor s.text s.style s.tag

namespace Yaml

/-- The scalar is an integer: written plainly, or under the tag of integers. -/
inductive Scalar.Writes (n : Int) : Scalar → Prop
  | plain {text : String} : integer? text.toList = some n → Writes n ⟨text, .plain, none⟩
  | tagged {text : String} {style : ScalarStyle} :
      integer? text.toList = some n → Writes n ⟨text, style, some (commonTag "int")⟩

/-- A large integer is no amount, in whatever base it is written. -/
theorem readAmount?_of_integer? {s : String} {n : Int} (h : integer? s.toList = some n) (hlarge : 2 ^ 96 ≤ |n|) :
    readAmount? s = Decimal.ofInt? n := by
  obtain ⟨sign, body, k, hs, hsign, hmagnitude, rfl⟩ := integer?_cases h
  rcases magnitude?_cases hmagnitude with ⟨mark, ds, rfl, hmark⟩ | ⟨hne, hdigits, rfl, -⟩
  · obtain ⟨hblank, hchar⟩ : Text.isBlank mark = false ∧ isAmountChar mark = false := by
      rcases hmark with rfl | rfl | rfl <;> decide
    have hmem : mark ∈ Text.trimChars s.toList := Text.mem_trimChars (by simp [hs]) hblank
    have hall : (Text.trimChars s.toList).all isAmountChar = false :=
      List.all_eq_false.2 ⟨mark, hmem, by simp [hchar]⟩
    rw [(ofInt?_eq_none_iff _).2 hlarge]
    simp [readAmount?, hall]
  · rw [← String.ofList_toList (s := s), hs]
    exact readAmount?_integral hsign hne hdigits

theorem Scalar.heardAs_of_writes {s : Scalar} {n : Int} {v : Datum} {t : String} (hs : s.Writes n)
    (hv : s.datum = .ok v) (ht : typedAmount? v = some t) : ∃ n', HeardAs n n' t := by
  cases hs with
  | @plain text h =>
    obtain rfl : plainDatum text = v := by simpa [datum] using hv
    rcases plainDatum_whole h with ⟨hdatum, hlow, hhigh⟩ | ⟨z, negative, k, hdatum, rfl, hz, hk⟩ | hdatum |
      ⟨hdatum, hlarge⟩
    · rw [hdatum] at ht
      exact Proposal.heardAs_integer hlow hhigh ht
    · rw [hdatum] at ht
      cases ht
      exact Proposal.heardAs_of_stands hz (Proposal.not_word_of_lt hk)
    · rw [hdatum] at ht
      cases ht
    · rw [hdatum] at ht
      cases ht
      exact ⟨n, Proposal.heardAs_self (readAmount?_of_integer? h (by omega))⟩
  | @tagged text style h =>
    have hbool : (commonTag "int" == commonTag "bool") = false := by decide +kernel
    have hread : readInteger? text = integerDatum? n := by rw [readInteger?, h, Option.bind_some]
    simp only [datum, hbool, Bool.false_eq_true, if_false, beq_self_eq_true, if_true, hread, integerDatum?] at hv
    split at hv
    · rename_i hword
      cases hv
      exact Proposal.heardAs_integer hword.1 hword.2 ht
    · split at hv
      · cases hv
        cases ht
      · cases hv

namespace Node

/-- The node is a proposal with this integer, without quotes, for its amount. -/
inductive BareAmount (n : Int) : Node → Prop
  | member {d : Node} {anchor : Option Nat} {tag : Option String} {entries : List (YamlDraft × YamlDraft)}
      {closed : Bool} {key x : YamlDraft} {name s : Scalar} : d.target = .mapping anchor tag entries closed →
      (key, x) ∈ entries → key.IsScalar d.document.anchors name → name.text = "amount" →
      x.IsScalar d.document.anchors s → s.Writes n → BareAmount n d

/-- The second node is the first one with this text in quotes for its amount. The amount is no anchor, so both
documents have the same. -/
inductive Requoted (t : String) : Node → Node → Prop
  | member {doc doc' : Document} {path : List PathStep} {anchor : Option Nat} {tag : Option String}
      {before after : List (YamlDraft × YamlDraft)} {closed : Bool} {key x : YamlDraft} {name : Scalar} :
      key.IsScalar doc.anchors name → name.text = "amount" → doc'.anchors = doc.anchors →
      doc'.root.eventCount = doc.root.eventCount →
      Requoted t ⟨doc, .mapping anchor tag (before ++ (key, x) :: after) closed, path⟩
        ⟨doc', .mapping anchor tag (before ++ (key, .scalar none t .other none) :: after) closed, path⟩

/-- A scalar that is read as an amount. -/
theorem exists_datum_of_decodeAmount {d : Node} {s : Scalar} {t : String} (hs : d.draft.IsScalar d.document.anchors s)
    (h : decodeAmount d = .ok t) : ∃ v, s.datum = .ok v ∧ typedAmount? v = some t := by
  obtain ⟨v, hv, ht⟩ := Proposal.decodeAmount_eq_ok_iff.1 h
  obtain ⟨-, -, hv⟩ := exists_of_bind_eq_ok hv
  obtain ⟨anchor, htarget⟩ := hs
  simp only [datum, target, htarget] at hv
  split at hv
  · cases hv
    cases ht
  · split at hv
    · rename_i hdatum
      cases hv
      exact ⟨v, hdatum, ht⟩
    · cases hv

/-- Where an amount is read, another one in quotes can be. -/
theorem decodeAmount_quoted {doc doc' : Document} {x : YamlDraft} {path : List PathStep} {s t : String}
    (h : decodeAmount (⟨doc, x, path⟩ : Node) = .ok s) :
    decodeAmount (⟨doc', .scalar none t .other none, path⟩ : Node) = .ok t := by
  obtain ⟨v, hv, -⟩ := Proposal.decodeAmount_eq_ok_iff.1 h
  obtain ⟨_, hpass, _⟩ := exists_of_bind_eq_ok hv
  refine Proposal.decodeAmount_eq_ok_iff.2 ⟨.text t, ?_, rfl⟩
  show wholeDatum _ = _
  cases hlevels : maxLevels + 1 - path.length with
  | zero =>
    simp only [hlevels] at hpass
    cases hpass
  | succ levels =>
    simp only [wholeDatum, hlevels]
    rfl

section
variable {doc doc' : Document} (hanchors : doc'.anchors = doc.anchors)
  (hevents : doc'.root.eventCount = doc.root.eventCount)

include hanchors in
theorem text_onDocument (expected : String) (x : YamlDraft) (path : List PathStep) :
    text expected ⟨doc', x, path⟩ = text expected ⟨doc, x, path⟩ := by
  simp only [text, refuse, fail, locate, target, hanchors]

include hanchors hevents in
theorem decodeAmount_onDocument (x : YamlDraft) (path : List PathStep) :
    decodeAmount (⟨doc', x, path⟩ : Node) = decodeAmount (⟨doc, x, path⟩ : Node) := by
  have hwhole : wholeDatum ⟨doc', x, path⟩ = wholeDatum ⟨doc, x, path⟩ := by
    simp only [wholeDatum, datum, fail, locate, target, maxAliases, hanchors, hevents]
  exact congrArg (· >>= _) hwhole

include hanchors hevents in
/-- A member is read alike in a document with the same anchors and as many events. -/
theorem readMember_onDocument (x : YamlDraft) (path : List PathStep) (s : Proposal.Partial) (m : YamlDraft × YamlDraft) :
    Field.readMember Proposal.fields s (entry ⟨doc', x, path⟩ m) =
      Field.readMember Proposal.fields s (entry ⟨doc, x, path⟩ m) := by
  refine @Proposal.readMember_alike Node _ (entry ⟨doc, x, path⟩ m) (entry ⟨doc', x, path⟩ m) ?name rfl ?string ?amount s
  case name => exact text_onDocument hanchors _ _ _
  case string => exact text_onDocument hanchors "a string" m.2 (stepTo m.1 :: path)
  case amount => exact decodeAmount_onDocument hanchors hevents m.2 (stepTo m.1 :: path)

include hanchors hevents in
theorem holds_mapping {draft : YamlDraft} {path : List PathStep} {anchor : Option Nat} {tag : Option String}
    {before after : List (YamlDraft × YamlDraft)} {closed : Bool} {key x : YamlDraft} {name : Scalar}
    (hkey : key.IsScalar doc.anchors name) (hname : name.text = "amount")
    (h : resolve doc'.anchors draft = .mapping anchor tag (before ++ (key, x) :: after) closed) :
    Holds (⟨doc', draft, path⟩ : Node) (Proposal.membersWith (before.map (entry ⟨doc, .void, path⟩))
      (after.map (entry ⟨doc, .void, path⟩)) (endingOf closed) ⟨doc', x, stepTo key :: path⟩) := by
  have hamount : entry ⟨doc', draft, path⟩ (key, x) = (.ok "amount", ⟨doc', x, stepTo key :: path⟩) := by
    obtain ⟨a, hresolve⟩ := hkey
    rw [← hanchors] at hresolve
    simp [entry, inner, text, target, hresolve, hname]
  rw [← Proposal.membersWith_map (readMember_onDocument hanchors hevents .void path)]
  refine Proposal.holds_members fun title => ?_
  show layout title _ = _
  simp only [layout, target, h, List.map_append, List.map_cons, hamount]
  rfl

end

variable {n : Int} {t : String} {d d' : Node} {p : Proposal}

theorem heardAs_of_bareAmount (hd : d.BareAmount n) (h : Proposal.decode d = .ok p) : ∃ n', HeardAs n n' p.amount := by
  obtain ⟨htarget, hmem, hkey, hname, hx, hwrites⟩ := hd
  obtain ⟨before, after, rfl⟩ := List.append_of_mem hmem
  have hread := ((Proposal.readsAmount_members _ _ _).decode (holds_mapping rfl rfl hkey hname htarget) h).1
  obtain ⟨v, hv, hs⟩ := exists_datum_of_decodeAmount hx hread
  exact Scalar.heardAs_of_writes hwrites hv hs

theorem decode_requoted (hd : d.Requoted t d') (h : Proposal.decode d = .ok p) : Proposal.decode d' = .ok { p with amount := t } := by
  obtain ⟨hkey, hname, hanchors, hevents⟩ := hd
  obtain ⟨hread, hothers⟩ := (Proposal.readsAmount_members _ _ _).decode (holds_mapping rfl rfl hkey hname rfl) h
  exact hothers _ _ _ (holds_mapping hanchors hevents hkey hname rfl) (decodeAmount_quoted hread)

end Node

end Yaml

/-! ## Bare and quoted -/

namespace Proposal

/-- A proposal that is read from JSON or YAML with the integer `n` for its amount has a text for it that stands for an
integer near `n`, and for `n` itself if that has 63 bits. With the digits of `n` in quotes it is read as well, and is
the same but for the text. -/
theorem bare_amount_is_near_the_quoted (n : Int) (p : Proposal) :
    (∀ d : JsonNode, d.BareAmount n → decode d = .ok p → (∃ n', HeardAs n n' p.amount) ∧
      ∀ d', d.Requoted (toString n) d' → decode d' = .ok { p with amount := toString n }) ∧
    ∀ d : Yaml.Node, d.BareAmount n → decode d = .ok p → (∃ n', HeardAs n n' p.amount) ∧
      ∀ d', d.Requoted (toString n) d' → decode d' = .ok { p with amount := toString n } := by
  refine ⟨fun d hd h => ⟨JsonNode.heardAs_of_bareAmount hd h, fun d' hd' => ?json⟩,
    fun d hd h => ⟨Yaml.Node.heardAs_of_bareAmount hd h, fun d' hd' => ?yaml⟩⟩
  case json => exact JsonNode.decode_requoted hd' h
  case yaml => exact Yaml.Node.decode_requoted hd' h

/-- The number ten, in JSON, and in YAML behind the mark of a base. -/
theorem bare_amount_of_ten :
    let ten : JsonDraft := (JsonDraft.ofText (String.ofList (minus false ++ ['1', '0']))).1
    let key : YamlDraft := .scalar none "amount" .plain none
    let root (x : YamlDraft) : YamlDraft := .mapping none none [(key, x)] true
    let document (x : YamlDraft) : Yaml.Document := ⟨root x, [], true⟩
    let hex : YamlDraft := .scalar none "0xa" .plain none
    (∃ n', HeardAs 10 n' "10") ∧
      decode (⟨.object [(some "amount", ten)] true, 128, false⟩ : JsonNode) = .ok ⟨"", "10", ""⟩ ∧
      decode (⟨.object [(some "amount", .string (some "10"))] true, 128, false⟩ : JsonNode) = .ok ⟨"", "10", ""⟩ ∧
      decode (⟨document hex, root hex, []⟩ : Yaml.Node) = .ok ⟨"", "10", ""⟩ ∧
      decode (⟨document (.scalar none "10" .other none), root (.scalar none "10" .other none), []⟩ : Yaml.Node) =
        .ok ⟨"", "10", ""⟩ := by
  intro ten key root document hex
  have hten : ten.Writes 10 := ⟨false, ['1', '0'], ⟨by simp, List.all_eq_true.1 rfl, by simp⟩, by decide, rfl⟩
  have hhex : Yaml.Scalar.Writes 10 ⟨"0xa", .plain, none⟩ := .plain (by decide +kernel)
  have hjson : decode (⟨.object [(some "amount", ten)] true, 128, false⟩ : JsonNode) = .ok ⟨"", "10", ""⟩ := by
    decide +kernel
  have hyaml : decode (⟨document hex, root hex, []⟩ : Yaml.Node) = .ok ⟨"", "10", ""⟩ := by decide +kernel
  have hkey : key.IsScalar [] ⟨"amount", .plain, none⟩ := ⟨none, rfl⟩
  obtain ⟨hfrom, hyamls⟩ := bare_amount_is_near_the_quoted 10 ⟨"", "10", ""⟩
  obtain ⟨hheard, hquoted⟩ := hfrom _ (.member List.mem_cons_self hten) hjson
  obtain ⟨-, hquoted'⟩ := hyamls _ (.member rfl List.mem_cons_self hkey rfl ⟨none, rfl⟩ hhex) hyaml
  exact ⟨hheard, hjson, hquoted _ (@JsonNode.Requoted.member _ [] [] _ _ _ _), hyaml,
    hquoted' _ (@Yaml.Node.Requoted.member _ _ _ _ _ _ [] [] _ _ _ _ hkey rfl rfl rfl)⟩

/-- With 2^63 for its amount a proposal is decided as another one than with the same number in quotes. -/
theorem bare_amount_is_not_the_quoted :
    let bare := "\x7b\"currency\":\"usd\",\"amount\":9223372036854775808,\"effective_from\":\"2024-06-01\"\x7d"
    let plain := "currency: usd\namount: 9223372036854775808\neffective_from: 2024-06-01"
    let quoted := "\x7b\"currency\":\"usd\",\"amount\":\"9223372036854775808\",\"effective_from\":\"2024-06-01\"\x7d"
    let currencies : List Currency := [⟨"USD", "US Dollar", some "$", some 2⟩]
    ∃ p q, Json.decode decode bare = .ok p ∧ Yaml.decode decode plain = .ok p ∧ Json.decode decode quoted = .ok q ∧
      q.amount = toString (2 ^ 63 : Int) ∧ readAmount? p.amount ≠ readAmount? q.amount ∧
      p.validate currencies [] Instant.epoch ≠ q.validate currencies [] Instant.epoch := by
  intro bare plain quoted currencies
  refine ⟨⟨"usd", "9223372036854776000", "2024-06-01"⟩, ⟨"usd", "9223372036854775808", "2024-06-01"⟩, by decide +kernel,
    by decide +kernel, by decide +kernel, by decide +kernel, by decide +kernel, fun h => ?_⟩
  have hamounts := congrArg (fun r : Except _ Acceptance => r.toOption.map (·.amount)) h
  exact absurd hamounts (by decide +kernel)

end Proposal

end Tariff
