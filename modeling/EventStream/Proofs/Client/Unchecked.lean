import EventStream.Proofs.Client.Validated
import EventStream.Proofs.Url.Scheme
/-!
# What reaches a request unchecked

A configuration is checked setting by setting, but a request is made of more than what was checked.
The identifier to resume after is taken as it comes, so a line end in it breaks the line of its
header. The path of a request may have a scheme of its own, which is not held against the supported
ones. These are the only two ways: what follows says for which settings and paths they are open.

## Main results

* `request_eq_ok_iff`, `exists_request_iff` — which requests can be made
* `not_isSingleLine_request_iff` — which values of a request break a line
* `scheme_request` — which scheme a request has
-/

namespace EventStream.Configuration

variable {α : Type} {c base : Configuration α} {input path name value : String}
  {request : Request α}

/-- The requests that can be made: those for which the path leads to an address. -/
theorem request_eq_ok_iff [Addresses α] : c.request path = .ok request ↔
    request.method = .get ∧ Addresses.join c.baseUrl path = .ok request.url ∧
      request.headers = Headers.ofList (c.ownHeaders ++ c.headers) := by
  unfold Configuration.request
  cases Addresses.join c.baseUrl path with
  | error reason => exact ⟨nofun, fun h => nomatch h.2.1⟩
  | ok url =>
    rw [Except.ok.injEq, Except.ok.injEq]
    constructor
    · rintro rfl
      exact ⟨rfl, rfl, rfl⟩
    · rintro ⟨hmethod, rfl, hheaders⟩
      rw [← hmethod, ← hheaders]

/-! ### Line ends -/

/-- Of the values that every request has, only the identifier to resume after can break a line. -/
theorem ownValue_not_isSingleLine_iff :
    c.ownValue name = some value ∧ ¬ IsSingleLine value ↔
      name = "last-event-id" ∧ c.lastEventId = some value ∧ IsAscii value ∧
        ¬ IsSingleLine value := by
  have hfixed : IsSingleLine eventStreamType ∧ IsSingleLine "no-cache" := by decide +kernel
  constructor
  · rintro ⟨hvalue, hbroken⟩
    unfold ownValue at hvalue
    split at hvalue
    · obtain rfl := Option.some.inj hvalue
      exact absurd hfixed.1 hbroken
    · obtain rfl := Option.some.inj hvalue
      exact absurd hfixed.2 hbroken
    · obtain ⟨hid, hascii⟩ := Option.filter_eq_some_iff.1 hvalue
      exact ⟨rfl, hid, of_decide_eq_true hascii, hbroken⟩
    · cases hvalue
  · rintro ⟨rfl, hid, hascii, hbroken⟩
    exact ⟨Option.filter_eq_some_iff.2 ⟨hid, decide_eq_true hascii⟩, hbroken⟩

/-- A value of a request breaks a line exactly if it is the identifier to resume after and no header
takes its place: the headers that were added are single lines. -/
theorem not_isSingleLine_iff (hlines : ∀ header ∈ c.headers, IsSingleLine header.value) :
    (Headers.ofList (c.ownHeaders ++ c.headers))[name]? = some value ∧ ¬ IsSingleLine value ↔
      name = "last-event-id" ∧ c.lastEventId = some value ∧ IsAscii value ∧
        ¬ IsSingleLine value ∧ ∀ header ∈ c.headers, header.name ≠ "last-event-id" := by
  rw [getElem?_ofList_ownHeaders, Option.or_eq_some_iff]
  constructor
  · rintro ⟨hadded | ⟨hnone, hown⟩, hbroken⟩
    · obtain ⟨header, hlast, rfl⟩ := Option.map_eq_some_iff.1 hadded
      exact absurd (hlines header (List.mem_filter.1 (List.mem_of_getLast? hlast)).1) hbroken
    · obtain ⟨rfl, hid, hascii, -⟩ := ownValue_not_isSingleLine_iff.1 ⟨hown, hbroken⟩
      rw [Option.map_eq_none_iff, List.getLast?_eq_none_iff, List.filter_eq_nil_iff] at hnone
      exact ⟨rfl, hid, hascii, hbroken, fun header hmem hname =>
        hnone header hmem (decide_eq_true hname)⟩
  · rintro ⟨rfl, hid, hascii, hbroken, hnames⟩
    have hnone : c.headers.filter (·.name = "last-event-id") = [] :=
      List.filter_eq_nil_iff.2 fun header hmem hname =>
        hnames header hmem (of_decide_eq_true hname)
    rw [hnone]
    exact ⟨Or.inr ⟨rfl, (ownValue_not_isSingleLine_iff.2 ⟨rfl, hid, hascii, hbroken⟩).1⟩, hbroken⟩

/-- Which values of a request break a line, after any settings. There is at most one: the identifier
that was set last, if it is ASCII and has a line end in it. It is sent as it is, unless a header of
that name, in whatever case, was accepted as well. -/
theorem not_isSingleLine_request_iff [Addresses α] (hbase : ofBaseUrl input = .ok base)
    (settings : List Setting) (hrequest : (base.setAll settings).request path = .ok request)
    (name value : String) :
    request.headers[name]? = some value ∧ ¬ IsSingleLine value ↔
      name = "last-event-id" ∧
        (settings.filterMap Setting.lastEventId?).getLast? = some value ∧ IsAscii value ∧
        ¬ IsSingleLine value ∧
        ∀ header ∈ settings.filterMap Setting.header?, ¬ SameName header.name "last-event-id" := by
  have hmade : (base.setAll settings).IsMade := ⟨input, base, settings, hbase, rfl⟩
  have hid : (base.setAll settings).lastEventId =
      (settings.filterMap Setting.lastEventId?).getLast? := by
    have hstart := congrArg Configuration.lastEventId (ofBaseUrl_eq_ok_iff.1 hbase).2.2
    rw [lastEventId_setAll, hstart, Option.or_none]
  have hheaders : (base.setAll settings).headers =
      (settings.filterMap Setting.header?).map Header.lower := by
    rw [headers_setAll, headers_of_ofBaseUrl hbase, List.nil_append]
  have hlower : "last-event-id".map Char.toLower = "last-event-id" := by decide +kernel
  rw [(request_eq_ok_iff.1 hrequest).2.2,
    not_isSingleLine_iff fun header hmem => (hmade.headers header hmem).2, hid, hheaders,
    List.forall_mem_map]
  simp only [SameName, hlower, Header.lower, ne_eq]

/-- A header takes the place of an identifier that would break its line. -/
theorem not_isSingleLine_request_iff_replaced :
    let base : Configuration Url :=
      { baseUrl := { scheme := "http", host := some (.name "localhost"), path := .segments [""] } }
    let settings : List Setting :=
      [.lastEventId "1\r\nX-Role: admin", .header "Last-Event-ID" "1"]
    ofBaseUrl "http://localhost/" = .ok base ∧
    ∃ request, (base.setAll settings).request "feed" = .ok request ∧
      ∀ (name value : String), request.headers[name]? = some value → IsSingleLine value := by
  intro base settings
  have hbase : ofBaseUrl "http://localhost/" = .ok base := rfl
  obtain ⟨request, hrequest⟩ : ∃ request, (base.setAll settings).request "feed" = .ok request :=
    ⟨_, rfl⟩
  refine ⟨hbase, request, hrequest, fun name value hvalue => ?_⟩
  apply Decidable.byContradiction
  intro hbroken
  obtain ⟨-, -, -, -, hnames⟩ :=
    (not_isSingleLine_request_iff hbase settings hrequest name value).1 ⟨hvalue, hbroken⟩
  have hmem : (⟨"Last-Event-ID", "1"⟩ : Header) ∈ settings.filterMap Setting.header? := by
    decide +kernel
  have hsame : SameName "Last-Event-ID" "last-event-id" := by decide +kernel
  exact hnames _ hmem hsame

/-- An identifier with a line end in it brings in a header of its own. -/
theorem exists_request_not_isSingleLine :
    ∃ (base : Configuration Url) (request : Request Url),
      ofBaseUrl "http://localhost/" = .ok base ∧
      (base.setAll [.lastEventId "1\r\nX-Role: admin"]).request "feed" = .ok request ∧
      request.headers["last-event-id"]? = some "1\r\nX-Role: admin" ∧
      ¬ IsSingleLine "1\r\nX-Role: admin" := by
  have hbroken : ¬ IsSingleLine "1\r\nX-Role: admin" := by decide +kernel
  refine ⟨_, _, rfl, rfl, ?_, hbroken⟩
  decide +kernel

/-! ### Schemes -/

/-- The addresses for which requests can be made: those to which the path leads from the base
address, whatever they are. -/
theorem exists_request_iff [Addresses α] (c : Configuration α) (path : String) (url : α) :
    (∃ request, c.request path = .ok request ∧ request.url = url) ↔
      Addresses.join c.baseUrl path = .ok url := by
  constructor
  · rintro ⟨request, hrequest, rfl⟩
    exact (request_eq_ok_iff.1 hrequest).2.1
  · intro h
    exact ⟨⟨.get, url, Headers.ofList (c.ownHeaders ++ c.headers)⟩,
      request_eq_ok_iff.2 ⟨rfl, h, rfl⟩, rfl⟩

/-- Which scheme a request has. It asks for the address to which its path leads from the base
address, whatever scheme that has: the one that the path has of its own, and without one that of the
base address. So it has a supported one exactly if the path has none of its own, or a supported
one. -/
theorem scheme_request [Addresses α] (hjoin : Addresses.JoinsByScheme α)
    (hbase : ofBaseUrl input = .ok base) (settings : List Setting) (path : String) :
    (∀ url, (∃ request, (base.setAll settings).request path = .ok request ∧ request.url = url) ↔
      Addresses.join base.baseUrl path = .ok url) ∧
    ∀ request, (base.setAll settings).request path = .ok request →
      (∀ own, OwnScheme path own → Addresses.scheme request.url = own) ∧
      ((∀ own, ¬ OwnScheme path own) →
        Addresses.scheme request.url = Addresses.scheme base.baseUrl) ∧
      ((Addresses.scheme request.url = "http" ∨ Addresses.scheme request.url = "https") ↔
        ∀ own, OwnScheme path own → own = "http" ∨ own = "https") := by
  have hrequests := exists_request_iff (base.setAll settings) path
  rw [baseUrl_setAll] at hrequests
  refine ⟨hrequests, fun request hrequest => ?_⟩
  have hurl := (hrequests request.url).1 ⟨request, hrequest, rfl⟩
  have hown : ∀ own, OwnScheme path own → Addresses.scheme request.url = own :=
    fun _ h => hjoin.replaced h hurl
  have hbare : (∀ own, ¬ OwnScheme path own) →
      Addresses.scheme request.url = Addresses.scheme base.baseUrl :=
    fun h => hjoin.kept h hurl
  refine ⟨hown, hbare, fun hsupported own h => hown own h ▸ hsupported, fun h => ?_⟩
  by_cases hexists : ∃ own, OwnScheme path own
  · obtain ⟨own, hscheme⟩ := hexists
    rw [hown own hscheme]
    exact h own hscheme
  · rw [hbare (not_exists.1 hexists)]
    exact (ofBaseUrl_eq_ok_iff.1 hbase).2.1

/-- Blanks in front of a scheme and a tab behind it do not matter, and neither does its case. -/
theorem scheme_request_upper :
    let base : Configuration Url :=
      { baseUrl := { scheme := "http", host := some (.name "localhost"), path := .segments [""] } }
    Addresses.JoinsByScheme Url ∧
    ofBaseUrl "http://localhost/" = .ok base ∧
    OwnScheme " HTTPS:\t//localhost/" "https" ∧
    ∃ request, (base.setAll []).request " HTTPS:\t//localhost/" = .ok request ∧
      request.url.scheme = "https" := by
  intro base
  have hjoin : Addresses.JoinsByScheme Url := Url.joinsByScheme_addresses Host.plainDomain?
  have hbase : ofBaseUrl "http://localhost/" = .ok base := rfl
  have hmore : ∀ c ∈ "TTPS".toList, IsSchemeChar c := by simp [IsSchemeChar]
  have hown : OwnScheme " HTTPS:\t//localhost/" "https" :=
    ⟨'H', "TTPS".toList, "//localhost/".toList, by decide +kernel, by decide, hmore,
      by decide +kernel⟩
  exact ⟨hjoin, hbase, hown, _, rfl, ((scheme_request hjoin hbase [] _).2 _ rfl).1 _ hown⟩

/-- A path with an unsupported scheme leads there. -/
theorem exists_request_unsupported :
    ∃ (base : Configuration Url) (request : Request Url),
      ofBaseUrl "http://localhost/" = .ok base ∧
      base.request "ftp://localhost/" = .ok request ∧
      Addresses.scheme request.url ≠ "http" ∧ Addresses.scheme request.url ≠ "https" := by
  refine ⟨_, _, rfl, rfl, ?_⟩
  decide +kernel

end EventStream.Configuration
