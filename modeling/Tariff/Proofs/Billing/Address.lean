import Mathlib
import Tariff.Proofs.Billing.Answers
import Tariff.Proofs.Billing.Record
import Tariff.Proofs.Url.Base
/-
  Tariff.Proofs.Billing.Address — where the history of a price is.

  The identifier of a price stands in the address of its history as it is. What it writes there is
  a part of the path from which it is read back, between `prices` and `amounts`, if and only if it
  is plain (`Url.Plain`).

  - `history_addresses`: so it is at every base address without query and fragment, and histories of
    different plain prices are at different addresses, where all requests about them go.
  - `prices_at_one_address`: other prices may be at one address.
-/

namespace Tariff

open Stateful (exec)

/-! ## Bases -/

/-- The base address is that of the service without the slashes at its end. -/
theorem ServiceConfig.exists_slashes (c : ServiceConfig) :
    ∃ k, c.baseUrl.toList = c.base.toList ++ List.replicate k '/' := by
  have hbase : c.base.toList = c.baseUrl.toList.rdropWhile (· == '/') := String.toList_ofList
  refine ⟨(c.baseUrl.toList.rtakeWhile (· == '/')).length, ?_⟩
  have hslashes : c.baseUrl.toList.rtakeWhile (· == '/') =
      List.replicate (c.baseUrl.toList.rtakeWhile (· == '/')).length '/' := by
    rw [List.eq_replicate_iff]
    refine ⟨rfl, ?_⟩
    intro d hd
    simpa using List.mem_rtakeWhile_imp hd
  rw [← hslashes, hbase, List.rdropWhile, List.rtakeWhile, ← List.reverse_append, List.takeWhile_append_dropWhile,
    List.reverse_reverse]

/-- What is written for the history of a price between the base address and the price. -/
def historyHead : List Char := '/' :: ("prices".toList ++ ['/'])

/-- What is written behind the price. -/
def historyTail : List Char := '/' :: "amounts".toList

theorem ServiceConfig.historyAddress_eq (c : ServiceConfig) (priceId : String) :
    c.historyAddress priceId = String.ofList (c.base.toList ++ (historyHead ++ (priceId.toList ++ historyTail))) := by
  apply String.toList_injective
  simp [historyAddress, historyHead, historyTail, String.toList_append]

theorem isEdge_historyTail (front : List Char) : ∀ ch ∈ (front ++ historyTail).getLast?, Url.isEdge ch = false := by
  have htail : historyTail = '/' :: "amount".toList ++ ['s'] := by decide
  intro ch hch
  rw [htail, ← List.append_assoc, List.getLast?_concat] at hch
  cases hch
  rfl

namespace Url

theorem filter_history (cs : List Char) :
    (historyHead ++ (cs ++ historyTail)).filter (!isDropped ·) =
      historyHead ++ (cs.filter (!isDropped ·) ++ historyTail) := by
  have hhead : historyHead.filter (!isDropped ·) = historyHead := by decide
  have htail : historyTail.filter (!isDropped ·) = historyTail := by decide
  rw [List.filter_append, List.filter_append, hhead, htail]

theorem endsPath_historyHead : ∀ c ∈ historyHead, endsPath c = false := by
  have hall : historyHead.all (!endsPath ·) = true := by decide
  intro c hc
  simpa using List.all_eq_true.1 hall c hc

theorem endsPath_historyTail : ∀ c ∈ historyTail, endsPath c = false := by
  have hall : historyTail.all (!endsPath ·) = true := by decide
  intro c hc
  simpa using List.all_eq_true.1 hall c hc

theorem splitSlashes_amounts : splitSlashes "amounts".toList = ["amounts".toList] := by decide

theorem escape_amounts : escape escapedInPath "amounts".toList = "amounts".toList := by decide

theorem stays_amounts : Stays "amounts".toList := ⟨by decide, by decide⟩

/-- Behind a directory the path goes on with the part for prices. -/
theorem pathParts_history {path : List Char} (hpath : ∀ c ∈ path.head?, isSlash c = true) (more : List Char) :
    pathParts (path ++ (historyHead ++ more)) =
      (normalParts (directory path ++ ["prices".toList]) (splitSlashes more)).map String.ofList := by
  have hsplit : splitSlashes "prices".toList = ["prices".toList] := by decide
  have hescape : escape escapedInPath "prices".toList = "prices".toList := by decide
  have hstays : Stays "prices".toList := ⟨by decide, by decide⟩
  have hstep : ["prices".toList].foldl stepped (directory path) = directory path ++ ["prices".toList] := by
    rw [List.foldl_cons, List.foldl_nil, stepped_of_stays hstays, hescape]
  rw [historyHead, List.cons_append, pathParts_below hpath, List.append_assoc, List.singleton_append,
    splitSlashes_append, hsplit, normalParts_append _ _ (splitSlashes_ne_nil _), hstep]

/-- The address of the history of a price below some parts. -/
def ofHistory (u : Url) (above : List String) (priceId : String) : Url :=
  { u with path := above ++ ["prices", String.ofList (escape escapedInPath priceId.toList), "amounts"] }

/-- What is written for a plain price is a part of the path. -/
theorem Plain.extended_history {priceId : String} (h : Plain priceId.toList) {path : List Char}
    (hpath : ∀ c ∈ path.head?, isSlash c = true) {u : Url} (hquery : u.query = none) (hfragment : u.fragment = none) :
    u.extended path ((historyHead ++ (priceId.toList ++ historyTail)).filter (!isDropped ·)) =
      u.ofHistory ((directory path).map String.ofList) priceId := by
  have hkept : priceId.toList.filter (!isDropped ·) = priceId.toList :=
    List.filter_eq_self.2 fun c hc => by simp [h.isDropped_eq c hc]
  have hwhole : ∀ c ∈ historyHead ++ (priceId.toList ++ historyTail), endsPath c = false := by
    intro c hc
    rcases List.mem_append.1 hc with hc | hc
    · exact endsPath_historyHead c hc
    · rcases List.mem_append.1 hc with hc | hc
      · exact h.endsPath_eq c hc
      · exact endsPath_historyTail c hc
  rw [filter_history, hkept, extended_of_whole hquery hfragment path hwhole, pathParts_history hpath, historyTail,
    h.normalParts_eq splitSlashes_amounts stays_amounts, escape_amounts]
  simp [ofHistory]

/-- Where the price has a part of its own from which it is read, it is plain. -/
theorem plain_of_extended {priceId : String} {path : List Char} (hpath : ∀ c ∈ path.head?, isSlash c = true) {u : Url}
    {segment : String}
    (hparts : (u.extended path ((historyHead ++ (priceId.toList ++ historyTail)).filter (!isDropped ·))).path =
      (directory path).map String.ofList ++ ["prices", segment, "amounts"])
    (hread : unescape? segment.toList = some priceId.toList) : Plain priceId.toList := by
  have htake : (historyHead ++ (priceId.toList.filter (!isDropped ·) ++ historyTail)).takeWhile (!endsPath ·) =
      historyHead ++ (priceId.toList.filter (!isDropped ·) ++ historyTail).takeWhile (!endsPath ·) :=
    List.takeWhile_append_of_pos fun c hc => by simp [endsPath_historyHead c hc]
  have hlists : normalParts (directory path ++ ["prices".toList]) (splitSlashes
      ((priceId.toList.filter (!isDropped ·) ++ '/' :: "amounts".toList).takeWhile (!endsPath ·))) =
        directory path ++ ["prices".toList] ++ [segment.toList, escape escapedInPath "amounts".toList] := by
    have hinjective : Function.Injective (List.map String.ofList) :=
      List.map_injective_iff.2 fun _ _ => String.ofList_injective
    apply hinjective
    rw [extended_path, filter_history, htake, pathParts_history hpath, historyTail] at hparts
    rw [hparts, escape_amounts]
    simp
  exact plain_of_normalParts splitSlashes_amounts stays_amounts
    (fun c hc => endsPath_historyTail c (List.mem_cons_of_mem _ hc)) hlists hread

/-- An address that ends with a slash is that of the directory. -/
theorem extended_slash {path : List Char} (hpath : ∀ c ∈ path.head?, isSlash c = true) {u : Url}
    (hquery : u.query = none) (hfragment : u.fragment = none) :
    u.extended path ['/'] = { u with path := (directory path).map String.ofList ++ [""] } := by
  have hwhole : ∀ c ∈ ['/'], endsPath c = false := by
    intro c hc
    rw [List.mem_singleton.1 hc]
    rfl
  have hnil : splitSlashes [] = [] ++ [[]] := rfl
  rw [extended_of_whole hquery hfragment path hwhole, pathParts_below hpath, hnil,
    normalParts_concat_of_stays _ _ stays_nil]
  simp [escape]

end Url

/-- What stands below a base address: its own path is a directory and perhaps slashes, with one slash the address is
that of the directory, and the histories are read on from there. -/
theorem ServiceConfig.read_below_base (c : ServiceConfig) {u : Url} (hread : Url.read c.baseUrl = .ok u)
    (hend : ∀ ch ∈ c.baseUrl.toList.getLast?, Url.isEdge ch = false) (hweb : u.isWeb = true)
    (hquery : u.query = none) (hfragment : u.fragment = none) :
    ∃ path, (∀ ch ∈ path.head?, Url.isSlash ch = true) ∧
      (∃ n, u.path = (Url.directory path).map String.ofList ++ List.replicate n "") ∧
      Url.read (c.base ++ "/") = .ok { u with path := (Url.directory path).map String.ofList ++ [""] } ∧
      ∀ p, Url.read (c.historyAddress p) =
        .ok (u.extended path ((historyHead ++ (p.toList ++ historyTail)).filter (!Url.isDropped ·))) := by
  obtain ⟨k, hslashes⟩ := c.exists_slashes
  obtain ⟨path, hpath, hself, hmore⟩ := Url.exists_front hslashes hend hread hweb hquery hfragment
  refine ⟨path, hpath, ?own, ?root, ?history⟩
  case own =>
    obtain ⟨n, hn⟩ := Url.pathParts_slashes hpath k
    refine ⟨n, ?_⟩
    rw [hself, Url.extended_path, List.takeWhile_replicate, if_pos (by decide), hn]
  case root =>
    have hbase : c.base ++ "/" = String.ofList (c.base.toList ++ ['/']) := by
      apply String.toList_injective
      simp [String.toList_append]
    have hkept : ['/'].filter (!Url.isDropped ·) = ['/'] := rfl
    rw [hbase, hmore ['/'], hkept, Url.extended_slash hpath hquery hfragment]
    · intro ch hch
      exact (Option.some.inj hch).symm
    · intro ch hch
      rw [List.getLast?_concat] at hch
      cases hch
      rfl
  case history =>
    intro p
    rw [c.historyAddress_eq]
    apply hmore
    · intro ch hch
      exact (Option.some.inj hch).symm
    · rw [← List.append_assoc, ← List.append_assoc]
      exact isEdge_historyTail _

/-! ## Texts of addresses -/

namespace Url

/-- An address with different parts in one place is written differently. -/
theorem text_ofHistory_injective {u : Url} {above : List String} {p q : String}
    (h : (u.ofHistory above p).text = (u.ofHistory above q).text) :
    escape escapedInPath p.toList = escape escapedInPath q.toList := by
  have hparts : ∀ segment : String, String.intercalate "/" (above ++ ["prices", segment, "amounts"]) =
      String.intercalate "/" (above ++ ["prices"]) ++ "/" ++ (segment ++ "/amounts") := by
    intro segment
    have hsplit : above ++ ["prices", segment, "amounts"] = (above ++ ["prices"]) ++ [segment, "amounts"] := by simp
    have htail : segment ++ "/" ++ "amounts" = segment ++ "/amounts" := by
      rw [String.append_assoc]
      rfl
    rw [hsplit, String.intercalate_append_of_ne_nil (by simp) (by simp), String.intercalate_cons_cons,
      String.intercalate_singleton, htail]
  unfold text ofHistory at h
  simp only [hparts, String.append_assoc] at h
  have hsegments : String.ofList (escape escapedInPath p.toList) = String.ofList (escape escapedInPath q.toList) := by
    split at h <;> simpa using h
  exact String.ofList_injective hsegments

end Url

/-! ## Requests -/

section

variable {m : Type → Type} [Monad m] {σ : Type} [Stateful m σ]

/-- The action sends something, and all that it sends goes to this address; but nothing can be sent with a key that
cannot stand in a header. -/
def SendsTo {α : Type} (c : ServiceConfig) (url : Url) (act : Act (StateT Record m) α) : Prop :=
  ∀ r (s : σ), act.Ensures (r, s) fun _ t => ∃ es, t.1 = r.add es ∧ (∀ e ∈ es, e.request.url = url) ∧
    ∀ key, c.authorization = .ok key → es ≠ []

theorem ServiceConfig.url_of_request {c : ServiceConfig} {method : Method} {address : String} {body : Option String}
    {request : Request} {url : Url} (h : c.request method address body = .ok request)
    (hread : Url.read address = .ok url) : request.url = url := by
  obtain ⟨url', authorization, hread', -, -, rfl⟩ := ServiceConfig.request_eq_ok_iff.1 h
  exact Except.ok.inj (hread'.symm.trans hread)

theorem ServiceConfig.exists_request {c : ServiceConfig} {address : String} {url : Url} {key : Option String}
    (hread : Url.read address = .ok url) (hweb : url.isWeb = true) (hkey : c.authorization = .ok key)
    (method : Method) (body : Option String) : ∃ request, c.request method address body = .ok request :=
  ⟨_, ServiceConfig.request_eq_ok_iff.2 ⟨url, key, hread, hkey, hweb, rfl⟩⟩

theorem Record.add_injective (r : Record) : Function.Injective r.add := by
  intro es fs h
  have hexchanges : r.exchanges ++ es = r.exchanges ++ fs := by rw [← r.exchanges_add, ← r.exchanges_add, h]
  exact List.append_cancel_left hexchanges

/-- A request that can be made is sent at least once, however often it is tried. -/
theorem retry_sends (host : Host m) {c : ServiceConfig} {address : String} {request : Request}
    (hrequest : c.request .get address none = .ok request) (ms n : Nat) (r : Record) (s : σ) :
    ∃ es, es ≠ [] ∧ (exec (retry ((host.client c).send .get address none) ((host.client c).sleep ms) n)
      (r, s)).2.1 = r.add es := by
  have hsent := host.exec_send c .get address none r s
  simp only [hrequest] at hsent
  cases n with
  | zero =>
    refine ⟨[⟨request, (exec (host.link request) s).1⟩], by simp, ?_⟩
    rw [retry, hsent]
  | succ n =>
    rw [retry, Stateful.exec_bind, hsent]
    cases (exec (host.link request) s).1 with
    | ok response => exact ⟨[⟨request, .ok response⟩], by simp, by simp⟩
    | error why =>
      obtain ⟨fs, hfs, -⟩ := retry_reads host c address ms n (r.add [⟨request, .error why⟩])
        (exec (host.sleep ms) (exec (host.link request) s).2).2
      have hsleep : ∀ r' t, exec ((host.client c).sleep ms) (r', t) =
          ((), r', (exec (host.sleep ms) t).2) := fun r' t => host.exec_sleep_recorded ms r' t
      refine ⟨⟨request, .error why⟩ :: fs, by simp, ?_⟩
      simp only [Stateful.exec_bind, hsleep, hfs, Record.add_add]
      rfl

/-- A reading leaves what its attempts leave. -/
theorem exec_history_snd (host : Host m) (c : ServiceConfig) (priceId : String) (r : Record) (s : σ) :
    (((host.client c).backend.history priceId).exec (r, s)).2 =
      (exec (retry ((host.client c).send .get (c.historyAddress priceId) none)
        ((host.client c).sleep Billing.retryDelay) Billing.retries) (r, s)).2 := by
  have hservice : (host.client c).service = c := rfl
  rw [← (exec_payload (host.client c) (c.historyAddress priceId) (r, s)).1]
  simp only [Billing.Client.backend, Act.exec_bind, Act.exec_ofExcept, hservice]
  rcases ((host.client c).payload (c.historyAddress priceId)).exec (r, s) with ⟨why | data, t⟩
  · rfl
  · rfl

theorem history_sendsTo (host : Host m) {c : ServiceConfig} {priceId : String} {url : Url}
    (hread : Url.read (c.historyAddress priceId) = .ok url) (hweb : url.isWeb = true) :
    SendsTo c url ((host.client c).backend.history priceId) := by
  intro r s
  obtain ⟨es, hes, hreads⟩ := history_reads host c priceId r s
  refine ⟨es, hes, fun e he => ServiceConfig.url_of_request (hreads.1 e he) hread, ?_⟩
  intro key hkey
  obtain ⟨request, hrequest⟩ := ServiceConfig.exists_request hread hweb hkey .get none
  obtain ⟨fs, hfs, hsent⟩ := retry_sends host hrequest Billing.retryDelay Billing.retries r s
  rw [exec_history_snd, hsent] at hes
  rwa [← r.add_injective hes]

theorem append_sendsTo (host : Host m) {c : ServiceConfig} {priceId : String} {url : Url}
    (hread : Url.read (c.historyAddress priceId) = .ok url) (hweb : url.isWeb = true) (new : NewVersion) :
    SendsTo c url ((host.client c).backend.append priceId new) := by
  intro r s
  apply (append_sends host c priceId new r s).mono
  rintro result t (⟨request, answer, hrequest, hes⟩ | ⟨why, -, hrequest, hes, -⟩)
  · refine ⟨[⟨request, answer⟩], hes, ?_, by simp⟩
    intro e he
    rw [List.mem_singleton.1 he]
    exact ServiceConfig.url_of_request hrequest hread
  · refine ⟨[], by rw [hes, Record.add_nil], by simp, ?_⟩
    intro key hkey
    obtain ⟨request, hmade⟩ := ServiceConfig.exists_request hread hweb hkey .post (some new.body)
    rw [hrequest] at hmade
    cases hmade

/-- Below a base address of the web without query and fragment, and without blanks at its end, a price is plain if
and only if the path of the address of its history goes on behind that of the base with `prices`, a part from which
the price is read back, and `amounts`. All requests about a plain price go there, and the addresses of different
plain prices are written differently. -/
theorem history_addresses (host : Host m) (c : ServiceConfig) {u : Url} (hread : Url.read c.baseUrl = .ok u)
    (hend : ∀ ch ∈ c.baseUrl.toList.getLast?, Url.isEdge ch = false) (hweb : u.isWeb = true)
    (hquery : u.query = none) (hfragment : u.fragment = none) :
    ∃ above : List String, (∃ n, u.path = above ++ List.replicate n "") ∧
      Url.read (c.base ++ "/") = .ok { u with path := above ++ [""] } ∧
      (∀ p : String, Url.Plain p.toList ↔ ∃ url segment, Url.read (c.historyAddress p) = .ok url ∧
        url.path = above ++ ["prices", segment, "amounts"] ∧ Url.unescape? segment.toList = some p.toList) ∧
      (∀ p : String, Url.Plain p.toList → Url.read (c.historyAddress p) = .ok (u.ofHistory above p) ∧
        SendsTo c (u.ofHistory above p) ((host.client c).backend.history p) ∧
        ∀ new, SendsTo c (u.ofHistory above p) ((host.client c).backend.append p new)) ∧
      ∀ p q : String, Url.Plain p.toList → Url.Plain q.toList → p ≠ q →
        (u.ofHistory above p).text ≠ (u.ofHistory above q).text := by
  obtain ⟨path, hpath, habove, hroot, hhistory⟩ := c.read_below_base hread hend hweb hquery hfragment
  have hplain : ∀ p : String, Url.Plain p.toList →
      Url.read (c.historyAddress p) = .ok (u.ofHistory ((Url.directory path).map String.ofList) p) := by
    intro p hp
    rw [hhistory, hp.extended_history hpath hquery hfragment]
  refine ⟨(Url.directory path).map String.ofList, habove, hroot, ?parts, ?requests, ?texts⟩
  case parts =>
    intro p
    constructor
    · intro hp
      refine ⟨_, String.ofList (Url.escape Url.escapedInPath p.toList), hplain p hp, rfl, ?_⟩
      rw [String.toList_ofList]
      exact hp.unescape?_escape
    · rintro ⟨url, segment, hurl, hparts, hsegment⟩
      rw [hhistory] at hurl
      cases hurl
      exact Url.plain_of_extended hpath hparts hsegment
  case requests =>
    intro p hp
    exact ⟨hplain p hp, history_sendsTo host (hplain p hp) hweb, append_sendsTo host (hplain p hp) hweb⟩
  case texts =>
    intro p q hp hq hne htext
    have hescaped := Url.text_ofHistory_injective htext
    have hsame : some p.toList = some q.toList := by
      rw [← hp.unescape?_escape, hescaped, hq.unescape?_escape]
    exact hne (String.toList_injective (Option.some.inj hsame))

end

/-- The histories of two prices below an address that ends with a slash. -/
theorem history_addresses_of_plain_prices :
    let c : ServiceConfig := ⟨"http://localhost/v1/", none⟩
    let backend := ((Billing.Bare.host Billing.Bare.wrapped).client c).backend
    ∃ u v : Url, u.path = ["v1", "prices", "price_1", "amounts"] ∧ v.path = ["v1", "prices", "price%202", "amounts"] ∧
      SendsTo c u (backend.history "price_1") ∧ SendsTo c v (backend.history "price 2") ∧ u.text ≠ v.text := by
  intro c backend
  have hread : Url.read c.baseUrl = .ok ⟨"http", "localhost", none, ["v1", ""], none, none⟩ := by decide +kernel
  have hone : Url.Plain "price_1".toList := by decide
  have htwo : Url.Plain "price 2".toList := by decide
  have hlast : c.baseUrl.toList.getLast? = some '/' := by decide
  have hend : ∀ ch ∈ c.baseUrl.toList.getLast?, Url.isEdge ch = false := by
    intro ch hch
    rw [hlast] at hch
    cases hch
    rfl
  obtain ⟨above, -, hroot, -, hsends, hdiffer⟩ := history_addresses (Billing.Bare.host Billing.Bare.wrapped) c hread
    hend rfl rfl rfl
  have habove : above = ["v1"] := by
    have hroot' : Url.read (c.base ++ "/") = .ok ⟨"http", "localhost", none, ["v1", ""], none, none⟩ := by
      decide +kernel
    have hpath := congrArg Url.path (Except.ok.inj (hroot.symm.trans hroot'))
    exact (List.append_left_inj [""]).1 hpath
  subst habove
  exact ⟨_, _, by decide, by decide, (hsends _ hone).2.1, (hsends _ htwo).2.1,
    hdiffer _ _ hone htwo (by decide)⟩

/-- Prices that are not plain may be at one address. -/
theorem prices_at_one_address :
    let c : ServiceConfig := ⟨"http://localhost", none⟩
    let url : Url := ⟨"http", "localhost", none, ["prices", "b", "amounts"], none, none⟩
    "a/../b" ≠ "b" ∧ Url.read (c.historyAddress "a/../b") = .ok url ∧ Url.read (c.historyAddress "b") = .ok url := by
  decide +kernel

end Tariff
