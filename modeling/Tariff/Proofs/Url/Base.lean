import Mathlib
import Tariff.Proofs.Url.Path
/-
  Tariff.Proofs.Url.Base — addresses that begin alike.

  Behind an address of the web without query and fragment more can be written, from a slash on
  (`exists_front`). The scheme, the host and the port stay, and the path goes on behind what the
  address ended with (`extended`).
-/

namespace Tariff.Url

/-! ## Cleaning -/

/-- Controls and spaces, which are dropped at the ends of an address. -/
def isEdge (c : Char) : Bool := c.toNat ≤ 0x20

theorem cleaned_eq {cs : List Char} (h : ∀ c ∈ cs.getLast?, isEdge c = false) :
    cleaned cs = (cs.dropWhile isEdge).filter (!isDropped ·) := by
  have hdropped : (fun c : Char => c != '\t' && c != '\n' && c != '\r') = (!isDropped ·) := by
    funext c
    simp [isDropped, bne]
  have hcleaned : cleaned cs = (((cs.dropWhile isEdge).reverse.dropWhile isEdge).reverse).filter
      fun c => c != '\t' && c != '\n' && c != '\r' := rfl
  rw [hcleaned, hdropped]
  rcases List.eq_nil_or_concat cs with rfl | ⟨init, last, rfl⟩
  · rfl
  · rw [List.concat_eq_append] at h ⊢
    have hlast : isEdge last = false := h last (by simp)
    have hend : ∃ init', (init ++ [last]).dropWhile isEdge = init' ++ [last] := by
      rw [List.dropWhile_append]
      split
      · exact ⟨[], by simp [hlast]⟩
      · exact ⟨_, rfl⟩
    obtain ⟨init', hinit⟩ := hend
    rw [hinit, List.reverse_append, List.reverse_singleton, List.singleton_append,
      List.dropWhile_cons_of_neg (by simp [hlast])]
    simp

/-- More is cleaned by itself if it begins with a slash. -/
theorem cleaned_append {cs more : List Char} (hmore : ∀ c ∈ more.head?, c = '/')
    (hend : ∀ c ∈ (cs ++ more).getLast?, isEdge c = false) :
    cleaned (cs ++ more) = (cs.dropWhile isEdge).filter (!isDropped ·) ++ more.filter (!isDropped ·) := by
  rw [cleaned_eq hend, ← List.filter_append, List.dropWhile_append]
  split
  · rename_i hnil
    rw [List.isEmpty_iff.1 hnil, List.nil_append]
    cases more with
    | nil => rfl
    | cons c more =>
      obtain rfl := hmore c rfl
      rfl
  · rfl

/-! ## Scheme -/

theorem drop_length_takeWhile {α : Type} (p : α → Bool) (xs : List α) :
    xs.drop (xs.takeWhile p).length = xs.dropWhile p :=
  calc
    xs.drop (xs.takeWhile p).length = (xs.takeWhile p ++ xs.dropWhile p).drop (xs.takeWhile p).length := by
      rw [List.takeWhile_append_dropWhile]
    _ = xs.dropWhile p := List.drop_left

/-- What is taken from the front stays when more is written that begins with something else. -/
theorem takeWhile_append_of_head {p : Char → Bool} {more : List Char} (hmore : ∀ c ∈ more.head?, p c = false)
    (cs : List Char) :
    (cs ++ more).takeWhile p = cs.takeWhile p ∧ (cs ++ more).dropWhile p = cs.dropWhile p ++ more := by
  induction cs with
  | nil =>
    cases more with
    | nil => exact ⟨rfl, rfl⟩
    | cons c more =>
      have hc : p c = false := hmore c rfl
      simp [hc]
  | cons c cs ih =>
    by_cases hc : p c = true
    · simp [hc, ih]
    · simp [hc]

theorem scheme?_append (cs : List Char) {more : List Char} (hmore : ∀ c ∈ more.head?, c = '/') :
    scheme? (cs ++ more) = (scheme? cs).map fun x => (x.1, x.2 ++ more) := by
  have hhead : ∀ c ∈ more.head?, isSchemeChar c = false := by
    intro c hc
    rw [hmore c hc]
    rfl
  obtain ⟨hname, hrest⟩ := takeWhile_append_of_head hhead cs
  simp only [scheme?, drop_length_takeWhile]
  rw [hname, hrest]
  cases cs.takeWhile isSchemeChar with
  | nil => rfl
  | cons first name =>
    cases cs.dropWhile isSchemeChar with
    | nil =>
      cases more with
      | nil => rfl
      | cons c more =>
        obtain rfl := hmore c rfl
        rfl
    | cons d ds =>
      by_cases hd : d = ':'
      · subst hd
        simp only [List.cons_append]
        split <;> rfl
      · simp [hd]

/-! ## Parts -/

/-- The address that is read where an address goes on, behind what its path ended with. -/
def extended (u : Url) (front more : List Char) : Url :=
  { u with
    path := pathParts (front ++ more.takeWhile (!endsPath ·))
    query := behindMark escapedInQuery ((more.takeWhile (· != '#')).dropWhile (· != '?'))
    fragment := behindMark escapedInFragment (more.dropWhile (· != '#')) }

theorem extended_path (u : Url) (front more : List Char) :
    (u.extended front more).path = pathParts (front ++ more.takeWhile (!endsPath ·)) := rfl

theorem takeWhile_endsPath (cs : List Char) :
    (cs.takeWhile (· != '#')).takeWhile (· != '?') = cs.takeWhile (!endsPath ·) := by
  rw [List.takeWhile_takeWhile]
  congr 1
  funext c
  rw [Bool.eq_iff_iff]
  simp [endsPath, and_comm]

theorem behindMark_eq_none {p : Char → Bool} {cs : List Char} : behindMark p cs = none ↔ cs = [] := by
  cases cs <;> simp [behindMark]

/-- More that does not end the path only makes the path longer. -/
theorem extended_of_whole {u : Url} (hquery : u.query = none) (hfragment : u.fragment = none) (front : List Char)
    {more : List Char} (hmore : ∀ c ∈ more, endsPath c = false) :
    u.extended front more = { u with path := pathParts (front ++ more) } := by
  have hmarks : ∀ c ∈ more, (c != '#') = true ∧ (c != '?') = true := by
    intro c hc
    have h := hmore c hc
    simp only [endsPath, Bool.or_eq_false_iff, beq_eq_false_iff_ne] at h
    simp [h]
  have hpath : more.takeWhile (!endsPath ·) = more :=
    List.takeWhile_eq_self_iff.2 fun c hc => by simp [hmore c hc]
  have hmark : more.takeWhile (· != '#') = more := List.takeWhile_eq_self_iff.2 fun c hc => (hmarks c hc).1
  have hnoFragment : more.dropWhile (· != '#') = [] := List.dropWhile_eq_nil_iff.2 fun c hc => (hmarks c hc).1
  have hnoQuery : more.dropWhile (· != '?') = [] := List.dropWhile_eq_nil_iff.2 fun c hc => (hmarks c hc).2
  rw [extended, hpath, hmark, hnoFragment, hnoQuery, hquery, hfragment]
  rfl

theorem ofRest_eq (scheme : String) (cs : List Char) :
    ofRest scheme cs =
      let body := cs.dropWhile isSlash
      let place := body.takeWhile (!endsPath ·)
      (authority scheme (place.takeWhile (!isSlash ·))).map fun site =>
        ⟨scheme, site.1, site.2, pathParts (place.dropWhile (!isSlash ·)),
          behindMark escapedInQuery ((body.takeWhile (· != '#')).dropWhile (· != '?')),
          behindMark escapedInFragment (body.dropWhile (· != '#'))⟩ := by
  simp only [ofRest, drop_length_takeWhile]
  simp only [takeWhile_endsPath]
  cases authority scheme _ <;> rfl

/-- An address without query and fragment has a host, and nothing in it ends the path. -/
theorem body_of_ofRest {scheme : String} {cs : List Char} {u : Url} (h : ofRest scheme cs = .ok u)
    (hquery : u.query = none) (hfragment : u.fragment = none) :
    cs.dropWhile isSlash ≠ [] ∧ ∀ c ∈ cs.dropWhile isSlash, endsPath c = false := by
  rw [ofRest_eq] at h
  simp only at h
  cases hsite : authority scheme (((cs.dropWhile isSlash).takeWhile (!endsPath ·)).takeWhile (!isSlash ·)) with
  | error why =>
    rw [hsite] at h
    cases h
  | ok site =>
    rw [hsite] at h
    cases h
    constructor
    · intro hnil
      rw [hnil] at hsite
      cases hsite
    · have hmarks := List.dropWhile_eq_nil_iff.1 (behindMark_eq_none.1 hfragment)
      have hqueries := behindMark_eq_none.1 hquery
      rw [List.takeWhile_eq_self_iff.2 hmarks] at hqueries
      have hquestions := List.dropWhile_eq_nil_iff.1 hqueries
      intro c hc
      have h1 := hmarks c hc
      have h2 := hquestions c hc
      simp only [bne_iff_ne, ne_eq] at h1 h2
      simp [endsPath, h1, h2]

theorem head?_takeWhile {p : Char → Bool} {more : List Char} (hmore : ∀ c ∈ more.head?, c = '/') :
    ∀ c ∈ (more.takeWhile p).head?, c = '/' := by
  intro c hc
  apply hmore
  cases more with
  | nil => cases hc
  | cons d more =>
    rw [List.takeWhile_cons] at hc
    split at hc
    · exact hc
    · cases hc

/-- Where nothing ends the path, an address goes on with what is written behind it. -/
theorem ofRest_append (scheme : String) {cs more : List Char} (hcs : cs.dropWhile isSlash ≠ [])
    (hends : ∀ c ∈ cs.dropWhile isSlash, endsPath c = false) (hmore : ∀ c ∈ more.head?, c = '/') :
    ofRest scheme (cs ++ more) =
      (authority scheme ((cs.dropWhile isSlash).takeWhile (!isSlash ·))).map fun site =>
        extended ⟨scheme, site.1, site.2, [], none, none⟩ ((cs.dropWhile isSlash).dropWhile (!isSlash ·)) more := by
  have hbody : (cs ++ more).dropWhile isSlash = cs.dropWhile isSlash ++ more := by
    rw [List.dropWhile_append, if_neg (by simpa using hcs)]
  have hslash : ∀ c ∈ (more.takeWhile (!endsPath ·)).head?, c = '/' := head?_takeWhile hmore
  generalize cs.dropWhile isSlash = body at *
  have hplace : (body ++ more).takeWhile (!endsPath ·) = body ++ more.takeWhile (!endsPath ·) :=
    List.takeWhile_append_of_pos fun c hc => by simp [hends c hc]
  have hmarks : ∀ c ∈ body, (c != '#') = true ∧ (c != '?') = true := by
    intro c hc
    have h := hends c hc
    simp only [endsPath, Bool.or_eq_false_iff, beq_eq_false_iff_ne] at h
    simp [h]
  obtain ⟨hhost, hpath⟩ := takeWhile_append_of_head (p := (!isSlash ·)) (by
    intro c hc
    rw [hslash c hc]
    rfl) body
  rw [ofRest_eq]
  simp only [hbody, hplace, hhost, hpath]
  rw [List.takeWhile_append_of_pos fun c hc => (hmarks c hc).1,
    List.dropWhile_append_of_pos fun c hc => (hmarks c hc).1,
    List.dropWhile_append_of_pos fun c hc => (hmarks c hc).2]
  rfl

/-! ## Addresses behind a base -/

theorem head?_filter {more : List Char} (hmore : ∀ c ∈ more.head?, c = '/') :
    ∀ c ∈ (more.filter (!isDropped ·)).head?, c = '/' := by
  intro c hc
  cases more with
  | nil => cases hc
  | cons d more =>
    obtain rfl := hmore d rfl
    rw [List.filter_cons_of_pos (by decide)] at hc
    exact (Option.some.inj hc).symm

/-- An address of the web whose scheme is read has parts. -/
theorem read_of_isWeb {s : String} {u : Url} (hread : read s = .ok u) (hweb : u.isWeb = true) :
    ∃ scheme rest, scheme? (cleaned s.toList) = some (scheme, rest) ∧
      (defaultPorts.lookup scheme).isSome = true ∧ ofRest scheme rest = .ok u := by
  unfold read at hread
  split at hread
  · cases hread
  · rename_i scheme rest hscheme
    split at hread
    · rename_i hport
      exact ⟨scheme, rest, hscheme, hport, hread⟩
    · rename_i hport
      cases hread
      simp only [isWeb, Bool.or_eq_true, beq_iff_eq] at hweb
      rcases hweb with rfl | rfl <;> exact absurd rfl hport

/-- Slashes at the end of an address may be replaced by more that begins with a slash. -/
theorem exists_front {s : String} {u : Url} {front : List Char} {k : Nat}
    (hs : s.toList = front ++ List.replicate k '/') (hend : ∀ c ∈ s.toList.getLast?, isEdge c = false)
    (hread : read s = .ok u) (hweb : u.isWeb = true) (hquery : u.query = none) (hfragment : u.fragment = none) :
    ∃ path, (∀ c ∈ path.head?, isSlash c = true) ∧ u = u.extended path (List.replicate k '/') ∧
      ∀ more, (∀ c ∈ more.head?, c = '/') → (∀ c ∈ (front ++ more).getLast?, isEdge c = false) →
        read (String.ofList (front ++ more)) = .ok (u.extended path (more.filter (!isDropped ·))) := by
  have hslashes : ∀ c ∈ (List.replicate k '/').head?, c = '/' := by
    intro c hc
    exact List.eq_of_mem_replicate (List.mem_of_mem_head? hc)
  obtain ⟨scheme, rest, hscheme, hport, hparts⟩ := read_of_isWeb hread hweb
  rw [hs] at hend
  have hkept : (List.replicate k '/').filter (!isDropped ·) = List.replicate k '/' := by
    rw [List.filter_replicate, if_pos (by decide)]
  rw [hs, cleaned_append hslashes hend, hkept, scheme?_append _ hslashes] at hscheme
  obtain ⟨⟨name, body⟩, hfront, hsplit⟩ := Option.map_eq_some_iff.1 hscheme
  obtain ⟨rfl, rfl⟩ := Prod.mk.inj hsplit
  obtain ⟨hbody, hends⟩ := body_of_ofRest hparts hquery hfragment
  have hfrontBody : body.dropWhile isSlash ≠ [] := by
    intro hnil
    rw [List.dropWhile_append, if_pos (by simp [hnil])] at hbody
    exact hbody (List.dropWhile_eq_nil_iff.2 fun c hc => by rw [List.eq_of_mem_replicate hc]; rfl)
  have hfrontEnds : ∀ c ∈ body.dropWhile isSlash, endsPath c = false := by
    intro c hc
    apply hends
    rw [List.dropWhile_append, if_neg (by simpa using hfrontBody)]
    exact List.mem_append_left _ hc
  rw [ofRest_append _ hfrontBody hfrontEnds hslashes] at hparts
  cases hsite : authority name ((body.dropWhile isSlash).takeWhile (!isSlash ·)) with
  | error why =>
    rw [hsite] at hparts
    cases hparts
  | ok site =>
    rw [hsite] at hparts
    cases hparts
    refine ⟨(body.dropWhile isSlash).dropWhile (!isSlash ·), ?_, rfl, ?_⟩
    · intro c hc
      have hnot := List.head?_dropWhile_not (!isSlash ·) (body.dropWhile isSlash)
      rw [Option.mem_def.1 hc] at hnot
      simpa using hnot
    · intro more hmore hmoreEnd
      have hkeptHead := head?_filter hmore
      rw [read, String.toList_ofList, cleaned_append hmore hmoreEnd, scheme?_append _ hkeptHead, hfront]
      simp only [Option.map_some, hport, if_true]
      rw [ofRest_append _ hfrontBody hfrontEnds hkeptHead, hsite]
      rfl

end Tariff.Url
