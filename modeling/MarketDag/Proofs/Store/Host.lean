import MarketDag.Proofs.Store.Remote

/-!
# Hosts of stores

The address of a store is a base for requests exactly if its path has a root: if its scheme has
special rules, as those of HTTP have, or a slash stands behind the colon of the scheme
(`Remote.isBase_iff_rooted`).  A store takes every other address as well, adds a slash to it and
then fails at each request, before it is sent.
-/

namespace MarketDag

namespace Remote

/-- Where requests go: segments, and the text that they have behind the slash of a base. -/
def endpoints : List (List (List Char) × String) :=
  [(importSegments, "api/v0/dag/import"), (blockSegments, "api/v0/block/get")]

variable {endpoint : List (List Char) × String}

theorem literal_of_mem_endpoints (h : endpoint ∈ endpoints) :
    ∀ s ∈ endpoint.1, Url.IsLiteral s := by
  revert endpoint
  decide

theorem toChars_of_mem_endpoints (h : endpoint ∈ endpoints) :
    (UrlPath.rooted endpoint.1).toChars = '/' :: endpoint.2.toList := by
  revert endpoint
  decide

/-! ## Addresses of stores -/

/-- Is a path another path with a slash at its end, which is added if there is none? -/
def Closes (path closed : List Char) : Prop :=
  closed.getLast? = some '/' ∧ (closed = path ∨ closed = path ++ ['/'])

/-- Has a store the path of an address, and do the addresses of its requests continue its own? -/
structure IsBase (r : Remote) (url : Url) : Prop where
  path : Closes url.path.toChars r.host.path.toChars
  join : ∀ endpoint ∈ endpoints, ∃ target, r.host.join endpoint.1 = .ok target ∧
    target.scheme = r.host.scheme ∧ target.authority = r.host.authority ∧
      target.path.toChars = r.host.path.toChars ++ endpoint.2.toList

/-- Stands nothing under a store's address? -/
structure NoBase (r : Remote) (url : Url) : Prop where
  /-- The slash behind a path without any text is encoded. -/
  path : Closes url.path.toChars r.host.path.toChars ∨
    url.path.toChars = [] ∧ r.host.path.toChars = "%2F".toList
  join : ∀ segments, r.host.join segments = .error .noBase

variable {host : String} {config : Config} {r : Remote} {url : Url}

theorem IsBase.not_noBase (h : IsBase r url) : ¬ NoBase r url := by
  intro hno
  obtain ⟨target, htarget, -⟩ := h.join _ List.mem_cons_self
  cases htarget.symm.trans (hno.join _)

theorem closes_basePath (url : Url) : Closes url.path.toChars (url.basePath ++ ['/']) := by
  refine ⟨List.getLast?_concat, ?_⟩
  rcases url.basePath_eq with h | h
  · exact .inr (by rw [h])
  · exact .inl h.symm

theorem isBase_of_isRooted (hurl : Url.ofText host = .ok url) (hrooted : url.IsRooted) :
    IsBase ⟨url.asBase, config⟩ url := by
  obtain ⟨front, hpath, hbase, hjoin⟩ := Url.join_asBase hurl hrooted
  have hclosed : url.asBase.path.toChars = url.basePath ++ ['/'] := by
    rw [hpath, Url.toChars_concat, hbase]
  refine ⟨hclosed ▸ closes_basePath url, fun endpoint h => ?_⟩
  refine ⟨_, hjoin _ (literal_of_mem_endpoints h), url.asBase_scheme.symm,
    url.asBase_authority.symm, ?_⟩
  rw [Url.toChars_append, hbase, toChars_of_mem_endpoints h, hclosed, List.append_cons]

/-- An address of HTTP has a path from a root, so that a store at it has a base. -/
theorem exists_isBase_of_isHttp (hr : ofHost host config = .ok r)
    (hhttp : Url.isHttp r.host.scheme = true) : ∃ url, IsBase r url := by
  obtain ⟨url, hurl, rfl⟩ := exists_of_ofHost hr
  have hspecial := Url.isSpecial_of_isHttp hhttp
  rw [Url.asBase_scheme] at hspecial
  exact ⟨url, isBase_of_isRooted hurl ((Url.isRooted_iff hurl).mpr (.inl hspecial))⟩

theorem noBase_of_not_isRooted (h : ¬ url.IsRooted) : NoBase ⟨url.asBase, config⟩ url := by
  obtain ⟨text, htext⟩ := Url.not_isRooted_iff.mp h
  refine ⟨?_, Url.join_asBase_of_plain h⟩
  rw [Url.asBase_path_of_plain htext]
  split
  · rename_i hempty
    exact .inr ⟨by rw [htext, hempty]; rfl, rfl⟩
  · exact .inl (closes_basePath url)

/-! ## Requests -/

/-- A request under a base continues the path of its store, if the scheme is one of HTTP. -/
theorem IsBase.request (h : IsBase r url) (hmem : endpoint ∈ endpoints)
    (query : List (String × String)) (part : Option Part) :
    if Url.isHttp r.host.scheme = true then
      ∃ request, r.request endpoint.1 query part = .ok request ∧
        request.path = String.ofList r.host.path.toChars ++ endpoint.2
    else r.request endpoint.1 query part = .error .notHttp := by
  obtain ⟨target, hjoin, hscheme, -, hpath⟩ := h.join endpoint hmem
  rw [request_of_join hjoin, hscheme]
  split
  · refine ⟨_, rfl, ?_⟩
    rw [requestTo, hpath, String.ofList_append, String.ofList_toList]
  · rfl

theorem NoBase.request (h : NoBase r url) (segments : List (List Char))
    (query : List (String × String)) (part : Option Part) :
    r.request segments query part = .error (.badHost .noBase) := by
  rw [Remote.request, h.join]
  rfl

/-! ## Accepted hosts -/

/-- A host that is refused is a fault of the settings. -/
theorem fails_ofHost (host : String) (config : Config) :
    Fails (Error.Among [.configuration]) (ofHost host config) := by
  refine .bind (.mapError fun _ => List.mem_singleton_self _) fun url _ => ?_
  dsimp only
  split
  · exact .error (List.mem_singleton_self _)
  · exact .ok _

/-- An accepted host is a base for requests exactly if its path has a root.  A refused host is a
fault of the settings.  A store at an accepted one keeps the scheme and the authority of its
address.  If the scheme has special rules, or a slash stands behind its colon, then the path of the
store ends with a slash, with one more than that of the address at most, and every request goes to
this path and its own, which is made if the scheme is one of HTTP.  At every other address each
request fails before it is sent. -/
theorem isBase_iff_rooted (host : String) (config : Config) :
    (∀ e, ofHost host config = .error e → e.kind = .configuration) ∧
    ∀ r, ofHost host config = .ok r → ∃ url, Url.ofText host = .ok url ∧
      r.host.scheme = url.scheme ∧ r.host.authority = url.authority ∧
      (url.IsRooted ↔ Url.isSpecial url.scheme = true ∨
        ∃ rest, Url.splitScheme? (Url.relevant host.toList) = some (url.scheme, '/' :: rest)) ∧
      (IsBase r url ↔ url.IsRooted) ∧ (NoBase r url ↔ ¬ url.IsRooted) ∧
      (url.IsRooted → ∀ endpoint ∈ endpoints, ∀ query part,
        if Url.isHttp url.scheme = true then
          ∃ request, r.request endpoint.1 query part = .ok request ∧
            request.path = String.ofList r.host.path.toChars ++ endpoint.2
        else r.request endpoint.1 query part = .error .notHttp) ∧
      (¬ url.IsRooted → ∀ segments query part,
        r.request segments query part = .error (.badHost .noBase)) := by
  refine ⟨fun e he => List.mem_singleton.mp (fails_ofHost host config e he), fun r hr => ?_⟩
  obtain ⟨url, hurl, rfl⟩ := exists_of_ofHost hr
  have hbase : url.IsRooted → IsBase ⟨url.asBase, config⟩ url := isBase_of_isRooted hurl
  have hno : ¬ url.IsRooted → NoBase ⟨url.asBase, config⟩ url := noBase_of_not_isRooted
  refine ⟨url, hurl, url.asBase_scheme, url.asBase_authority, Url.isRooted_iff hurl,
    ⟨fun h => ?_, hbase⟩, ⟨fun h hrooted => (hbase hrooted).not_noBase h, hno⟩,
    fun hrooted endpoint h query part => ?_, fun hrooted => (hno hrooted).request⟩
  · -- nothing is a base for requests and none at once
    by_contra hrooted
    exact h.not_noBase (hno hrooted)
  · rw [← url.asBase_scheme]
    exact (hbase hrooted).request h query part

/-- A name with a port is taken for a scheme and a text behind it. -/
theorem exists_unrooted : ∃ url r, Url.ofText "localhost:5001" = .ok url ∧ ¬ url.IsRooted ∧
    ofHost "localhost:5001" {} = .ok r :=
  ⟨⟨"localhost".toList, none, .plain "5001".toList, none, none⟩, ⟨_, _⟩, rfl,
    Url.not_isRooted_iff.mpr ⟨_, rfl⟩, rfl⟩

/-- Requests are made under a web address and not under a name with a port, and a text that is no
address is refused. -/
theorem isBase_sample :
    (∃ r url request, ofHost "http://127.0.0.1:5001/ipfs" { apiKey := some "key" } = .ok r ∧
      IsBase r url ∧ r.request blockSegments [] none = .ok request ∧
      request.path = String.ofList r.host.path.toChars ++ "api/v0/block/get") ∧
    (∃ r url, ofHost "localhost:5001" {} = .ok r ∧ NoBase r url ∧
      r.request blockSegments [] none = .error (.badHost .noBase)) ∧
    ∃ e, ofHost "not a url" {} = .error e ∧ e.kind = .configuration := by
  refine ⟨?_, ?_, .badHost .relative, rfl, (isBase_iff_rooted "not a url" {}).1 _ rfl⟩
  · obtain ⟨read, r, hread, hweb, hr⟩ := exists_local
    obtain ⟨url, hurl, -, -, -, hbase, -, hrequest, -⟩ := (isBase_iff_rooted _ _).2 r hr
    cases hread.symm.trans hurl
    have hrooted := hweb.isRooted hurl
    have hmade := hrequest hrooted _ (List.mem_cons_of_mem _ List.mem_cons_self) [] none
    rw [if_pos hweb.isHttp] at hmade
    obtain ⟨request, hmade, hpath⟩ := hmade
    exact ⟨r, read, request, hr, hbase.mpr hrooted, hmade, hpath⟩
  · obtain ⟨read, r, hread, hrooted, hr⟩ := exists_unrooted
    obtain ⟨url, hurl, -, -, -, -, hno, -, hrequest⟩ := (isBase_iff_rooted _ _).2 r hr
    cases hread.symm.trans hurl
    exact ⟨r, read, hr, hno.mpr hrooted, hrequest hrooted _ _ _⟩

/-- A store is made for a name with a port as well, though nothing stands under its address. -/
theorem not_always_isBase : ¬ ∀ host config r, ofHost host config = .ok r →
    ∀ endpoint ∈ endpoints, ∃ target, r.host.join endpoint.1 = .ok target := by
  intro h
  obtain ⟨url, r, hurl, hrooted, hr⟩ := exists_unrooted
  obtain ⟨target, htarget⟩ := h _ _ r hr _ List.mem_cons_self
  rw [ofHost_eq_ok hr hurl, Url.join_asBase_of_plain hrooted] at htarget
  cases htarget

end Remote

end MarketDag
