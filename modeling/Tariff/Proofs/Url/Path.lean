import Mathlib
import Tariff.Url.Basic
import Tariff.Proofs.Url.Escape
/-
  Tariff.Proofs.Url.Path — where the steps of a path lead.

  All steps but the last one are followed one by one (`stepped`), and the last one ends the path
  (`normalParts_concat`). What is new in a path then is what was written for one of the steps
  (`exists_of_getElem?_stepped`, `exists_of_getElem?_normalParts`). A text is one step if and only if there is
  no slash in it, and all other steps of it are shorter (`splitSlashes_eq_or_shorter`).
-/

namespace Tariff.Url

/-! ## Slashes -/

theorem splitSlashes_ne_nil (cs : List Char) : splitSlashes cs ≠ [] := by
  cases cs with
  | nil => simp [splitSlashes]
  | cons c cs =>
    rw [splitSlashes]
    split
    · simp
    · split <;> simp

theorem splitSlashes_slash {c : Char} (h : isSlash c = true) (cs : List Char) :
    splitSlashes (c :: cs) = [] :: splitSlashes cs := by
  rw [splitSlashes, if_pos h]

theorem splitSlashes_cons {c : Char} (h : isSlash c = false) {cs part : List Char} {parts : List (List Char)}
    (hcs : splitSlashes cs = part :: parts) : splitSlashes (c :: cs) = (c :: part) :: parts := by
  rw [splitSlashes, if_neg (by simp [h]), hcs]

theorem splitSlashes_append (xs ys : List Char) :
    splitSlashes (xs ++ '/' :: ys) = splitSlashes xs ++ splitSlashes ys := by
  induction xs with
  | nil => exact splitSlashes_slash rfl ys
  | cons c xs ih =>
    by_cases hc : isSlash c = true
    · rw [List.cons_append, splitSlashes_slash hc, splitSlashes_slash hc, ih, List.cons_append]
    · rw [Bool.not_eq_true] at hc
      obtain ⟨part, parts, hxs⟩ := List.exists_cons_of_ne_nil (splitSlashes_ne_nil xs)
      rw [hxs, List.cons_append] at ih
      rw [List.cons_append, splitSlashes_cons hc ih, splitSlashes_cons hc hxs, List.cons_append]

theorem splitSlashes_eq_singleton {cs : List Char} (h : ∀ c ∈ cs, isSlash c = false) : splitSlashes cs = [cs] := by
  induction cs with
  | nil => rfl
  | cons c cs ih =>
    exact splitSlashes_cons (h c List.mem_cons_self) (ih fun c hc => h c (List.mem_cons_of_mem _ hc))

/-- Of a text with a slash all steps are shorter than it is. -/
theorem splitSlashes_eq_or_shorter (cs : List Char) :
    (∀ c ∈ cs, isSlash c = false) ∨ ∀ part ∈ splitSlashes cs, part.length < cs.length := by
  induction cs with
  | nil => exact .inl (by simp)
  | cons c cs ih =>
    by_cases hc : isSlash c = true
    · right
      intro part hpart
      rw [splitSlashes_slash hc] at hpart
      rcases List.mem_cons.1 hpart with rfl | hpart
      · simp
      · rcases ih with hnone | hshorter
        · rw [splitSlashes_eq_singleton hnone, List.mem_singleton] at hpart
          simp [hpart]
        · have := hshorter part hpart
          rw [List.length_cons]
          omega
    · rw [Bool.not_eq_true] at hc
      rcases ih with hnone | hshorter
      · left
        intro d hd
        rcases List.mem_cons.1 hd with rfl | hd
        · exact hc
        · exact hnone d hd
      · right
        obtain ⟨first, rest, hcs⟩ := List.exists_cons_of_ne_nil (splitSlashes_ne_nil cs)
        intro part hpart
        rw [splitSlashes_cons hc hcs] at hpart
        rw [hcs] at hshorter
        rcases List.mem_cons.1 hpart with rfl | hpart
        · have := hshorter first List.mem_cons_self
          simp only [List.length_cons]
          omega
        · have := hshorter part (List.mem_cons_of_mem _ hpart)
          rw [List.length_cons]
          omega

theorem length_le_of_mem_splitSlashes {cs part : List Char} (h : part ∈ splitSlashes cs) :
    part.length ≤ cs.length := by
  rcases splitSlashes_eq_or_shorter cs with hnone | hshorter
  · rw [splitSlashes_eq_singleton hnone, List.mem_singleton] at h
    rw [h]
  · exact Nat.le_of_lt (hshorter part h)

/-! ## Steps -/

/-- Where a step leads that is not the last one. -/
def stepped (acc : List (List Char)) (part : List Char) : List (List Char) :=
  if isDoublePoint part then acc.dropLast
  else if isPoint part then acc
  else acc ++ [escape escapedInPath part]

/-- The step stays in the path: it is no point and no double point. -/
def Stays (part : List Char) : Prop := isPoint part = false ∧ isDoublePoint part = false

theorem stepped_of_stays {part : List Char} (h : Stays part) (acc : List (List Char)) :
    stepped acc part = acc ++ [escape escapedInPath part] := by
  simp [stepped, h.1, h.2]

theorem normalParts_append (acc xs : List (List Char)) {ys : List (List Char)} (hys : ys ≠ []) :
    normalParts acc (xs ++ ys) = normalParts (xs.foldl stepped acc) ys := by
  induction xs generalizing acc with
  | nil => rfl
  | cons x xs ih =>
    have hmore : (xs ++ ys).isEmpty = false := by cases ys <;> simp_all
    rw [List.foldl_cons, ← ih, List.cons_append, normalParts, hmore]
    simp only [Bool.false_eq_true, if_false, List.append_nil, stepped]
    split
    · rfl
    · split <;> rfl

/-- The last step: behind a point an empty part ends the path. -/
theorem normalParts_concat (acc xs : List (List Char)) (last : List Char) :
    ∃ ended, normalParts acc (xs ++ [last]) = stepped (xs.foldl stepped acc) last ++ ended ∧
      (Stays last ∧ ended = [] ∨ ¬ Stays last ∧ ended = [[]]) := by
  rw [normalParts_append acc xs (List.cons_ne_nil _ _)]
  simp only [normalParts, List.isEmpty_nil, if_true, stepped, Stays]
  cases hdouble : isDoublePoint last with
  | true => exact ⟨[[]], by simp, by simp⟩
  | false =>
    cases hpoint : isPoint last with
    | true => exact ⟨[[]], by simp, by simp⟩
    | false => exact ⟨[], by simp, by simp⟩

theorem normalParts_concat_of_stays (acc xs : List (List Char)) {last : List Char} (h : Stays last) :
    normalParts acc (xs ++ [last]) = xs.foldl stepped acc ++ [escape escapedInPath last] := by
  obtain ⟨ended, hparts, ⟨-, rfl⟩ | ⟨hnot, -⟩⟩ := normalParts_concat acc xs last
  · rw [hparts, stepped_of_stays h, List.append_nil]
  · exact absurd h hnot

/-- What is new after some steps was written for one of them. -/
theorem exists_of_getElem?_stepped {acc xs : List (List Char)} {i : Nat} {part : List Char} (hi : acc.length ≤ i)
    (h : (xs.foldl stepped acc)[i]? = some part) : ∃ x ∈ xs, part = escape escapedInPath x := by
  -- The steps leave a front of what was there, and nothing else but what is written for them.
  have kept : ∀ acc, ∃ j new, xs.foldl stepped acc = acc.take j ++ new ∧
      ∀ part ∈ new, ∃ x ∈ xs, part = escape escapedInPath x := by
    clear h hi
    induction xs with
    | nil => exact fun acc => ⟨acc.length, [], by simp, by simp⟩
    | cons x xs ih =>
      intro acc
      obtain ⟨j, new, hfold, hnew⟩ := ih (stepped acc x)
      have hmem : ∀ part ∈ new, ∃ y ∈ x :: xs, part = escape escapedInPath y := by
        intro part hpart
        obtain ⟨y, hy, hwritten⟩ := hnew part hpart
        exact ⟨y, List.mem_cons_of_mem _ hy, hwritten⟩
      rw [List.foldl_cons, hfold, stepped]
      split
      · exact ⟨min j (acc.length - 1), new, by rw [List.dropLast_eq_take, List.take_take], hmem⟩
      · split
        · exact ⟨j, new, rfl, hmem⟩
        · refine ⟨j, [escape escapedInPath x].take (j - acc.length) ++ new, by
            rw [List.take_append, List.append_assoc], ?_⟩
          intro part hpart
          rcases List.mem_append.1 hpart with hpart | hpart
          · exact ⟨x, List.mem_cons_self, List.mem_singleton.1 (List.mem_of_mem_take hpart)⟩
          · exact hmem part hpart
  obtain ⟨j, new, hfold, hnew⟩ := kept acc
  have hfront : (acc.take j).length ≤ i := by
    rw [List.length_take]
    omega
  rw [hfold, List.getElem?_append_right hfront] at h
  exact hnew part (List.mem_of_getElem? h)

/-- What is new in a path was written for one of its steps, or is empty at its end. -/
theorem exists_of_getElem?_normalParts {acc parts : List (List Char)} (hparts : parts ≠ []) {i : Nat}
    {part : List Char} (hi : acc.length ≤ i) (h : (normalParts acc parts)[i]? = some part) :
    ∃ x, (x = [] ∨ x ∈ parts) ∧ part = escape escapedInPath x := by
  obtain ⟨xs, last, rfl⟩ : ∃ xs last, parts = xs ++ [last] :=
    ⟨_, _, (List.dropLast_append_getLast hparts).symm⟩
  obtain ⟨ended, hnormal, hended⟩ := normalParts_concat acc xs last
  have hsteps : stepped (xs.foldl stepped acc) last = (xs ++ [last]).foldl stepped acc := by
    rw [List.foldl_append]
    rfl
  rw [hnormal, hsteps] at h
  by_cases hlt : i < ((xs ++ [last]).foldl stepped acc).length
  · rw [List.getElem?_append_left hlt] at h
    obtain ⟨x, hx, hwritten⟩ := exists_of_getElem?_stepped hi h
    exact ⟨x, .inr hx, hwritten⟩
  · rw [List.getElem?_append_right (Nat.not_lt.1 hlt)] at h
    have hmem := List.mem_of_getElem? h
    rcases hended with ⟨-, rfl⟩ | ⟨-, rfl⟩
    · cases hmem
    · exact ⟨[], .inl rfl, List.mem_singleton.1 hmem⟩

/-! ## Paths below a directory -/

/-- The steps that are written in front of a further slash. -/
def stepsOf : List Char → List (List Char)
  | [] => []
  | _ :: cs => splitSlashes cs

/-- The parts of the directory in front of a further slash. -/
def directory (cs : List Char) : List (List Char) := (stepsOf cs).foldl stepped []

theorem pathParts_below {cs : List Char} (hcs : ∀ c ∈ cs.head?, isSlash c = true) (rest : List Char) :
    pathParts (cs ++ '/' :: rest) = (normalParts (directory cs) (splitSlashes rest)).map String.ofList := by
  have hsplit : pathParts (cs ++ '/' :: rest) =
      (normalParts [] (stepsOf cs ++ splitSlashes rest)).map String.ofList := by
    cases cs with
    | nil => rfl
    | cons c cs =>
      have hc : isSlash c = true := hcs c rfl
      simp only [pathParts, List.cons_append, hc, if_true, stepsOf, splitSlashes_append]
  rw [hsplit, normalParts_append _ _ (splitSlashes_ne_nil rest), directory]

theorem stays_nil : Stays [] := ⟨rfl, rfl⟩

theorem foldl_stepped_blank (acc : List (List Char)) (k : Nat) :
    (List.replicate k []).foldl stepped acc = acc ++ List.replicate k [] := by
  induction k generalizing acc with
  | zero => simp
  | succ k ih =>
    have hblank : stepped acc [] = acc ++ [[]] := stepped_of_stays stays_nil acc
    rw [List.replicate_succ, List.foldl_cons, hblank, ih, List.append_assoc, List.singleton_append]

theorem splitSlashes_replicate (k : Nat) : splitSlashes (List.replicate k '/') = List.replicate (k + 1) [] := by
  induction k with
  | zero => rfl
  | succ k ih => rw [List.replicate_succ, splitSlashes_slash rfl, ih, ← List.replicate_succ]

/-- Slashes behind a path are empty parts at its end. -/
theorem pathParts_slashes {cs : List Char} (hcs : ∀ c ∈ cs.head?, isSlash c = true) (k : Nat) :
    ∃ n, pathParts (cs ++ List.replicate k '/') = (directory cs).map String.ofList ++ List.replicate n "" := by
  cases k with
  | zero =>
    rw [List.replicate_zero, List.append_nil]
    cases cs with
    | nil => exact ⟨1, rfl⟩
    | cons c cs =>
      have hc : isSlash c = true := hcs c rfl
      obtain ⟨xs, last, hxs⟩ : ∃ xs last, splitSlashes cs = xs ++ [last] :=
        ⟨_, _, (List.dropLast_append_getLast (splitSlashes_ne_nil cs)).symm⟩
      have hdirectory : directory (c :: cs) = stepped (xs.foldl stepped []) last := by
        rw [directory, stepsOf, hxs, List.foldl_append]
        rfl
      obtain ⟨ended, hparts, hended⟩ := normalParts_concat [] xs last
      simp only [pathParts, hc, if_true, hxs, hparts, ← hdirectory, List.map_append]
      rcases hended with ⟨-, rfl⟩ | ⟨-, rfl⟩
      · exact ⟨0, rfl⟩
      · exact ⟨1, rfl⟩
  | succ k =>
    refine ⟨k + 1, ?_⟩
    rw [List.replicate_succ, pathParts_below hcs, splitSlashes_replicate, List.replicate_succ',
      normalParts_concat_of_stays _ _ stays_nil, foldl_stepped_blank]
    simp [escape, List.replicate_succ']

/-! ## Texts as one step -/

/-- The text is one step of a path and can be read back from it. Nothing in it ends a step or the path or is
dropped when an address is read, it is not a point or a double point, and nothing in it looks like an escaped byte. -/
structure Plain (cs : List Char) : Prop where
  whole : ∀ c ∈ cs, c ∉ ['/', '\\', '?', '#', '\t', '\n', '\r']
  not_point : cs ≠ ['.']
  not_double_point : cs ≠ ['.', '.']
  literal : hasEscape cs = false

instance (cs : List Char) : Decidable (Plain cs) :=
  decidable_of_iff (cs.all (· ∉ ['/', '\\', '?', '#', '\t', '\n', '\r']) = true ∧ cs ≠ ['.'] ∧ cs ≠ ['.', '.'] ∧
      hasEscape cs = false)
    ⟨fun h => ⟨fun c hc => of_decide_eq_true (List.all_eq_true.1 h.1 c hc), h.2.1, h.2.2.1, h.2.2.2⟩,
      fun h => ⟨List.all_eq_true.2 fun c hc => decide_eq_true (h.whole c hc), h.not_point, h.not_double_point,
        h.literal⟩⟩

/-- The characters that end a path. -/
def endsPath (c : Char) : Bool := c == '#' || c == '?'

/-- The characters that are dropped when an address is read. -/
def isDropped (c : Char) : Bool := c == '\t' || c == '\n' || c == '\r'

theorem pointsResolved_of_not_hasEscape {cs : List Char} (h : hasEscape cs = false) : pointsResolved cs = cs := by
  fun_induction pointsResolved cs with
  | case1 cs ih => simp [hasEscape, startsEscape, Text.hexValue?] at h
  | case2 cs ih => simp [hasEscape, startsEscape, Text.hexValue?] at h
  | case3 c cs _ _ ih =>
    rw [hasEscape, Bool.or_eq_false_iff] at h
    rw [ih h.2]
  | case4 => rfl

variable {cs : List Char}

theorem Plain.stays (h : Plain cs) : Stays cs := by
  constructor
  · rw [isPoint, pointsResolved_of_not_hasEscape h.literal]
    exact beq_eq_false_iff_ne.2 h.not_point
  · rw [isDoublePoint, pointsResolved_of_not_hasEscape h.literal]
    exact beq_eq_false_iff_ne.2 h.not_double_point

theorem Plain.splitSlashes_eq (h : Plain cs) : splitSlashes cs = [cs] := by
  apply splitSlashes_eq_singleton
  intro c hc
  have hwhole := h.whole c hc
  simp only [List.mem_cons, not_or] at hwhole
  simp [isSlash, hwhole]

theorem Plain.endsPath_eq (h : Plain cs) : ∀ c ∈ cs, endsPath c = false := by
  intro c hc
  have hwhole := h.whole c hc
  simp only [List.mem_cons, not_or] at hwhole
  simp [endsPath, hwhole]

theorem Plain.isDropped_eq (h : Plain cs) : ∀ c ∈ cs, isDropped c = false := by
  intro c hc
  have hwhole := h.whole c hc
  simp only [List.mem_cons, not_or] at hwhole
  simp [isDropped, hwhole]

theorem Plain.unescape?_escape (h : Plain cs) : unescape? (escape escapedInPath cs) = some cs := by
  rw [Url.unescape?_escape sparing_path, unescape?_eq_self_iff]
  exact h.literal

/-- A plain text is a part of the path, escaped. -/
theorem Plain.normalParts_eq (h : Plain cs) {last : List Char} (hlast : splitSlashes last = [last])
    (hstays : Stays last) (acc : List (List Char)) :
    normalParts acc (splitSlashes (cs ++ '/' :: last)) =
      acc ++ [escape escapedInPath cs, escape escapedInPath last] := by
  rw [splitSlashes_append, hlast, normalParts_concat_of_stays _ _ hstays, h.splitSlashes_eq, List.foldl_cons,
    List.foldl_nil, stepped_of_stays h.stays]
  simp

/-- A part that a text was written as is one from which no longer text is read. -/
theorem length_le_of_unescape?_escape {x text : List Char}
    (h : unescape? (escape escapedInPath x) = some text) : text.length ≤ x.length := by
  rw [Url.unescape?_escape sparing_path] at h
  exact length_le_of_unescape? h

/-- A text without ends and without dropped characters is plain if it is a part as it is. -/
theorem plain_of_stepped {acc : List (List Char)} (hslash : ∀ c ∈ cs, isSlash c = false)
    (hdropped : ∀ c ∈ cs, (!isDropped c) = true) (hends : ∀ c ∈ cs, (!endsPath c) = true)
    (hstep : [cs].foldl stepped acc = acc ++ [escape escapedInPath cs])
    (hread : unescape? (escape escapedInPath cs) = some cs) : Plain cs := by
  have hlength : (stepped acc cs).length = acc.length + 1 := by
    rw [List.foldl_cons, List.foldl_nil] at hstep
    simp [hstep]
  constructor
  · intro c hc
    have h1 := hslash c hc
    have h2 := hdropped c hc
    have h3 := hends c hc
    simp only [isSlash, isDropped, endsPath, Bool.or_eq_false_iff, Bool.not_eq_true', beq_eq_false_iff_ne] at h1 h2 h3
    simp [h1, h2, h3]
  · rintro rfl
    have hstays : stepped acc ['.'] = acc := rfl
    rw [hstays] at hlength
    omega
  · rintro rfl
    have hback : stepped acc ['.', '.'] = acc.dropLast := rfl
    rw [hback, List.length_dropLast] at hlength
    omega
  · rwa [Url.unescape?_escape sparing_path, unescape?_eq_self_iff] at hread

/-- Where a text between two slashes, of which some characters are dropped and which may end the path, is a part of
its own from which it is read, it is plain: any part of it from which a text of its length is read is all of it. -/
theorem plain_of_normalParts {acc : List (List Char)} {part last : List Char} (hlast : splitSlashes last = [last])
    (hstays : Stays last) (hends : ∀ c ∈ last, endsPath c = false)
    (hparts : normalParts acc (splitSlashes
      ((cs.filter (!isDropped ·) ++ '/' :: last).takeWhile (!endsPath ·))) =
        acc ++ [part, escape escapedInPath last])
    (hread : unescape? part = some cs) : Plain cs := by
  have hfilter : (cs.filter (!isDropped ·)).length ≤ cs.length := List.length_filter_le _ _
  rcases Nat.lt_or_ge ((cs.filter (!isDropped ·)).takeWhile (!endsPath ·)).length
    (cs.filter (!isDropped ·)).length with hlt | hge
  · -- the path ends within the text, and all steps in front of that are shorter
    exfalso
    rw [List.takeWhile_append, if_neg (Nat.ne_of_lt hlt)] at hparts
    have hpart : (acc ++ [part, escape escapedInPath last])[acc.length]? = some part := by simp
    rw [← hparts] at hpart
    obtain ⟨x, hx, rfl⟩ := exists_of_getElem?_normalParts (splitSlashes_ne_nil _) (Nat.le_refl _) hpart
    have hlength := length_le_of_unescape?_escape hread
    rcases hx with rfl | hx
    · rw [List.length_nil] at hlength
      omega
    · have := length_le_of_mem_splitSlashes hx
      omega
  · have hall : (cs.filter (!isDropped ·)).takeWhile (!endsPath ·) = cs.filter (!isDropped ·) :=
      (List.takeWhile_prefix _).eq_of_length_le hge
    have hlastAll : ('/' :: last).takeWhile (!endsPath ·) = '/' :: last := by
      rw [List.takeWhile_eq_self_iff]
      intro c hc
      rcases List.mem_cons.1 hc with rfl | hc
      · rfl
      · simp [hends c hc]
    rw [List.takeWhile_append, if_pos (by rw [hall]), hlastAll, splitSlashes_append, hlast,
      normalParts_concat_of_stays _ _ hstays] at hparts
    have hsteps : (splitSlashes (cs.filter (!isDropped ·))).foldl stepped acc = acc ++ [part] := by
      refine List.append_cancel_right (?_ : _ ++ [escape escapedInPath last] = _)
      rw [hparts, List.append_assoc, List.singleton_append]
    have hpart : ((splitSlashes (cs.filter (!isDropped ·))).foldl stepped acc)[acc.length]? = some part := by
      simp [hsteps]
    obtain ⟨x, hx, rfl⟩ := exists_of_getElem?_stepped (Nat.le_refl _) hpart
    have hlength := length_le_of_unescape?_escape hread
    rcases splitSlashes_eq_or_shorter (cs.filter (!isDropped ·)) with hnone | hshorter
    · rw [splitSlashes_eq_singleton hnone] at hx hsteps
      obtain rfl := List.mem_singleton.1 hx
      have hsame : cs.filter (!isDropped ·) = cs := List.filter_sublist.eq_of_length_le hlength
      rw [hsame] at hnone hall hsteps hread
      exact plain_of_stepped hnone (List.filter_eq_self.1 hsame) (List.takeWhile_eq_self_iff.1 hall) hsteps hread
    · have := hshorter x hx
      omega

end Tariff.Url
