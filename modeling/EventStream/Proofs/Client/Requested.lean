import EventStream.Proofs.Client.Sending
/-!
# What a request consists of

A request asks for the address to which its path leads from the base address. For each name of a
header, in whatever case, it has the value that was added last under that name, or else the value
that every request has there, and it has no other headers. Setting them never fails: each value is
ASCII, whatever the settings and the servers have brought.

## Main definitions

* `Setting.header?`, `Setting.timeout?`, `Setting.lastEventId?` — what a setting puts there, if it
  is accepted
* `SameName` — two names of a header that differ in case only
* `Configuration.ownValue` — the value that every request has under a name
* `Headers.ofList?` — headers that are set one after the other, where a value can be refused

## Main results

* `set_getD` — what a setting changes, accepted or not
* `headers_setAll` — the headers of a configuration are those of the accepted settings
* `getElem?_headers_request` — the value of a request under a name
* `requests_documented_headers` — what a request consists of, after any settings and uses
-/

namespace EventStream

/-! ### Names -/

/-- The names differ in case only. -/
def SameName (name name' : String) : Prop := name.map Char.toLower = name'.map Char.toLower

instance (name name' : String) : Decidable (SameName name name') :=
  decidable_of_iff (name.toList.map Char.toLower = name'.toList.map Char.toLower) <| by
    rw [SameName, ← String.toList_map, ← String.toList_map, String.toList_inj]

/-- The header with its name in lower case. -/
def Header.lower (h : Header) : Header := ⟨h.name.map Char.toLower, h.value⟩

/-! ### Values that can be refused -/

namespace Headers

/-- Sets a header on top of others, and fails for a value that is not ASCII. -/
def insert? (all : Headers) (header : Header) : Option Headers :=
  if IsAscii header.value then some (all.insert header.name header.value) else none

/-- Sets several headers, one after the other. -/
def ofList? (headers : List Header) : Option Headers := headers.foldlM insert? ∅

/-- Where all values are ASCII, none is refused. -/
theorem ofList?_of_forall {headers : List Header} (h : ∀ header ∈ headers, IsAscii header.value) :
    ofList? headers = some (ofList headers) := by
  unfold ofList? ofList
  generalize (∅ : Headers) = all
  induction headers generalizing all with
  | nil => rfl
  | cons header headers ih =>
    -- the first value goes in, and the others on top of it
    obtain ⟨hheader, hheaders⟩ := List.forall_mem_cons.1 h
    rw [List.foldlM_cons, insert?, if_pos hheader]
    exact ih hheaders _

/-- A name that is set belongs to one of the headers. -/
theorem exists_mem_of_mem_ofList {headers : List Header} {name : String}
    (h : name ∈ ofList headers) : ∃ header ∈ headers, header.name = name := by
  obtain ⟨value, hvalue⟩ := Option.isSome_iff_exists.1 (Std.TreeMap.isSome_getElem?_iff_mem.2 h)
  exact ⟨_, mem_of_getElem?_ofList hvalue, rfl⟩

end Headers

namespace Configuration

variable {α : Type} {c base : Configuration α} {settings : List Setting}

/-! ### Settings -/

/-- The header that a setting adds, if it is accepted. -/
def Setting.header? : Setting → Option Header
  | .header name value =>
    if IsToken name ∧ IsAscii value ∧ IsSingleLine value then some ⟨name, value⟩ else none
  | _ => none

/-- The timeout that a setting puts there, if it is accepted. -/
def Setting.timeout? : Setting → Option Duration
  | .timeout duration => if duration = .ofParts 0 0 then none else some duration
  | _ => none

/-- The identifier that a setting puts there. -/
def Setting.lastEventId? : Setting → Option String
  | .lastEventId id => some id
  | _ => none

/-- A setting adds its header, or replaces the timeout or the identifier, and changes nothing else.
If it is refused, it changes nothing at all. -/
theorem set_getD (c : Configuration α) (setting : Setting) :
    (c.set setting).toOption.getD c =
      { c with
        headers := c.headers ++ (setting.header?.map Header.lower).toList
        timeout := setting.timeout?.getD c.timeout
        lastEventId := setting.lastEventId?.or c.lastEventId } := by
  cases setting with
  | header name value =>
    rw [set, withHeader, Setting.header?]
    by_cases hname : IsToken name
    · by_cases hvalue : IsAscii value ∧ IsSingleLine value
      · simp [hname, hvalue, Header.lower, Except.toOption, Setting.timeout?, Setting.lastEventId?]
      · simp [hname, hvalue, Except.toOption, Setting.timeout?, Setting.lastEventId?]
    · simp [hname, Except.toOption, Setting.timeout?, Setting.lastEventId?]
  | lastEventId id =>
    simp [set, withLastEventId, Except.toOption, Setting.header?, Setting.timeout?,
      Setting.lastEventId?]
  | timeout timeout =>
    rw [set, withTimeout, Setting.timeout?]
    split <;> simp [Except.toOption, Setting.header?, Setting.lastEventId?]

/-- The headers of a configuration are those of the settings that were accepted. -/
theorem headers_setAll (c : Configuration α) (settings : List Setting) :
    (c.setAll settings).headers =
      c.headers ++ (settings.filterMap Setting.header?).map Header.lower := by
  induction settings generalizing c with
  | nil => exact (List.append_nil _).symm
  | cons setting settings ih =>
    rw [setAll_cons, ih, set_getD, List.append_assoc]
    cases h : setting.header? with
    | none => simp [h]
    | some header => simp [h]

/-- No setting changes the base address. -/
theorem baseUrl_setAll (c : Configuration α) (settings : List Setting) :
    (c.setAll settings).baseUrl = c.baseUrl := by
  induction settings generalizing c with
  | nil => rfl
  | cons setting settings ih => rw [setAll_cons, ih, set_getD]

/-! ### Requests -/

/-- The value that every request has under a name in lower case, if it has one there. -/
def ownValue (c : Configuration α) : String → Option String
  | "accept" => some "text/event-stream"
  | "cache-control" => some "no-cache"
  | "last-event-id" => c.lastEventId.filter (IsAscii ·)
  | _ => none

theorem getLast?_ownHeaders (c : Configuration α) (name : String) :
    ((c.ownHeaders.filter (·.name = name)).getLast?).map Header.value = c.ownValue name := by
  unfold ownHeaders ownValue
  generalize c.lastEventId.filter (IsAscii ·) = id
  split
  · cases id <;> rfl
  · cases id <;> rfl
  · cases id <;> rfl
  · next haccept hcache hid =>
    -- no other name is among them
    rw [List.filter_eq_nil_iff.2, List.getLast?_nil, Option.map_none]
    intro header hmem hname
    obtain rfl := of_decide_eq_true hname
    rcases List.mem_append.1 hmem with hfixed | hlast
    · simp only [List.mem_cons, List.not_mem_nil, or_false] at hfixed
      rcases hfixed with rfl | rfl
      · exact haccept rfl
      · exact hcache rfl
    · obtain ⟨_, -, rfl⟩ := List.mem_map.1 hlast
      exact hid rfl

/-- Headers with names in lower case are found under any name that differs in case only. -/
theorem getLast?_lower (headers : List Header) (name : String) :
    (((headers.map Header.lower).filter (·.name = name.map Char.toLower)).getLast?).map
        Header.value =
      ((headers.filter (SameName ·.name name)).getLast?).map Header.value := by
  rw [List.filter_map, List.getLast?_map, Option.map_map]
  have hname : (fun h : Header => decide (h.name = name.map Char.toLower)) ∘ Header.lower =
      fun h => decide (SameName h.name name) :=
    funext fun _ => decide_eq_decide.2 Iff.rfl
  rw [hname]
  rfl

/-- The headers of the configuration take the place of those that every request has. -/
theorem getElem?_ofList_ownHeaders (c : Configuration α) (name : String) :
    (Headers.ofList (c.ownHeaders ++ c.headers))[name]? =
      ((c.headers.filter (·.name = name)).getLast?.map Header.value).or (c.ownValue name) := by
  rw [Headers.getElem?_ofList, List.filter_append, List.getLast?_append, Option.map_or,
    getLast?_ownHeaders]

/-- The value of a request under a name: the one that was added last, or else the one that every
request has. -/
theorem getElem?_headers_request {headers : List Header} (hheaders : c.headers = headers.map .lower)
    (name : String) :
    (Headers.ofList (c.ownHeaders ++ c.headers))[name.map Char.toLower]? =
      ((headers.filter (SameName ·.name name)).getLast?.map Header.value).or
        (c.ownValue (name.map Char.toLower)) := by
  rw [getElem?_ofList_ownHeaders, hheaders, getLast?_lower]

/-- Each name of a request is in lower case. -/
theorem exists_name_of_mem_ofList {headers : List Header}
    (hheaders : c.headers = headers.map .lower) {key : String}
    (h : key ∈ Headers.ofList (c.ownHeaders ++ c.headers)) :
    ∃ name : String, name.map Char.toLower = key := by
  obtain ⟨header, hmem, rfl⟩ := Headers.exists_mem_of_mem_ofList h
  rw [hheaders, ownHeaders, List.mem_append, List.mem_append] at hmem
  rcases hmem with (hfixed | hid) | hadded
  · simp only [List.mem_cons, List.not_mem_nil, or_false] at hfixed
    rcases hfixed with rfl | rfl
    · exact ⟨"accept", by decide +kernel⟩
    · exact ⟨"cache-control", by decide +kernel⟩
  · obtain ⟨_, -, rfl⟩ := List.mem_map.1 hid
    have hlower : "last-event-id".map Char.toLower = "last-event-id" := by decide +kernel
    exact ⟨"last-event-id", hlower⟩
  · obtain ⟨header, -, rfl⟩ := List.mem_map.1 hadded
    exact ⟨header.name, rfl⟩

/-- No value of a request is refused: its own values are ASCII, and so are those of accepted
settings. -/
theorem ofList?_request (h : ∀ header ∈ c.headers, IsAscii header.value) :
    Headers.ofList? (c.ownHeaders ++ c.headers) =
      some (Headers.ofList (c.ownHeaders ++ c.headers)) := by
  apply Headers.ofList?_of_forall
  refine List.forall_mem_append.2 ⟨fun header hmem => ?_, h⟩
  rcases value_of_mem_ownHeaders hmem with hfixed | ⟨-, hascii⟩
  · have hall : ∀ value ∈ [eventStreamType, "no-cache"], IsAscii value := by decide +kernel
    exact hall _ hfixed
  · exact hascii

end Configuration

namespace Client

open EventStream.Configuration

variable {α : Type}

/-- The client comes from a configuration: only the identifier that it remembers may differ. -/
def ComesFrom (c : Client α) (configuration : Configuration α) : Prop :=
  c.configuration = { configuration with lastEventId := c.lastEventId }

variable {c : Client α} {configuration base : Configuration α} {input : String}

theorem ComesFrom.recalling (h : c.ComesFrom configuration) (events : List Event) :
    (c.recalling events).ComesFrom configuration := by
  unfold ComesFrom at h ⊢
  rw [Client.recalling, h]
  rfl

/-- All copies of a client come from its configuration, whatever uses they are put to. -/
theorem Group.comesFrom_callAll [Addresses α] (configuration : Configuration α) (k : Cancellation)
    (calls : List Call) :
    ∀ c ∈ (({ current := ⟨configuration⟩, cancellation := k } : Group α).callAll calls).2.clients,
      c.ComesFrom configuration := by
  apply forall_clients_callAll (P := (·.ComesFrom configuration))
  · intro c events h _
    exact h.recalling events
  intro c hc
  obtain rfl := List.mem_singleton.1 hc
  rfl

/-- What the requests of a client consist of, whatever settings it was made with, refused ones among
them, and whatever it and its copies have been used for. A request fails only if its path does not
lead from the base address to another one, and says so. Otherwise it asks for that address. Under
each name, in whatever case, it has the value that was added last, or else the value that every
request has: the media type of a stream, the one that forbids stale answers, or the identifier that
the client remembers, if that is ASCII. All names are in lower case, so there is one value for each.
Setting the values one after the other never meets one that is not ASCII. -/
theorem Group.requests_documented_headers [Addresses α] (hbase : ofBaseUrl input = .ok base)
    (settings : List Setting) (k : Cancellation) (calls : List Call) :
    ∀ c ∈ (({ current := ⟨base.setAll settings⟩, cancellation := k } : Group α).callAll
        calls).2.clients, ∀ path,
      match Addresses.join base.baseUrl path with
      | .error reason => c.request path = .error (.invalidPath path reason)
      | .ok url => ∃ request, c.request path = .ok request ∧
          request.method = .get ∧ request.url = url ∧
          (∀ name : String, request.headers[name.map Char.toLower]? =
            (((settings.filterMap Setting.header?).filter (SameName ·.name name)).getLast?.map
                Header.value).or
              (match name.map Char.toLower with
                | "accept" => some "text/event-stream"
                | "cache-control" => some "no-cache"
                | "last-event-id" => c.lastEventId.filter (IsAscii ·)
                | _ => none)) ∧
          (∀ key ∈ request.headers, ∃ name : String, name.map Char.toLower = key) ∧
          Headers.ofList? (c.configuration.ownHeaders ++ c.configuration.headers) =
            some request.headers := by
  intro c hc path
  -- nothing but the identifier has changed since the settings were made
  have hcomes := comesFrom_callAll (base.setAll settings) k calls c hc
  have hurl : c.configuration.baseUrl = base.baseUrl := by
    rw [hcomes]
    exact baseUrl_setAll base settings
  have hheaders : c.configuration.headers =
      (settings.filterMap Setting.header?).map Header.lower := by
    rw [hcomes]
    dsimp only
    rw [headers_setAll, headers_of_ofBaseUrl hbase, List.nil_append]
  have hmade : (base.setAll settings).IsMade := ⟨input, base, settings, hbase, rfl⟩
  have hascii : ∀ header ∈ c.configuration.headers, IsAscii header.value := by
    rw [hcomes]
    exact fun header hmem => (hmade.headers header hmem).1
  unfold Client.request Configuration.request
  rw [hurl]
  cases Addresses.join base.baseUrl path with
  | error reason => rfl
  | ok url =>
    exact ⟨⟨.get, url, Headers.ofList (c.configuration.ownHeaders ++ c.configuration.headers)⟩, rfl,
      rfl, rfl, getElem?_headers_request hheaders, fun _ => exists_name_of_mem_ofList hheaders,
      ofList?_request hascii⟩

/-- Two headers take the place of the media type, one after the other, a third is refused, and an
identifier that cannot be sent is followed by one that can. -/
theorem Group.requests_documented_headers_replaced :
    let base : Configuration Url :=
      { baseUrl := { scheme := "http", host := some (.name "localhost"), path := .segments [""] } }
    let settings : List Setting :=
      [.header "Accept" "a", .header "ACCEPT" "b", .header "accept" "c\n", .lastEventId "é"]
    let stream : Response :=
      { contentTypes := ["text/event-stream"]
        body := { arrivals := [.chunk (Text.encode "id: 7\ndata: a\n\n")] } }
    let client : Client Url := ⟨(base.setAll settings).withLastEventId "7"⟩
    ofBaseUrl "http://localhost/" = .ok base ∧
    client ∈ (({ current := ⟨base.setAll settings⟩ } : Group Url).callAll
      [.collect stream 0]).2.clients ∧
    ∃ request, client.request "feed" = .ok request ∧
      request.method = .get ∧ request.headers["accept"]? = some "b" ∧ request.headers["last-event-id"]? = some "7" := by
  intro base settings stream client
  have hbase : ofBaseUrl "http://localhost/" = .ok base := rfl
  have hmem : client ∈ (({ current := ⟨base.setAll settings⟩ } : Group Url).callAll
      [.collect stream 0]).2.clients := by decide +kernel
  have hrequests := requests_documented_headers hbase settings {} [.collect stream 0] client hmem
    "feed"
  obtain ⟨url, hjoin⟩ : ∃ url, Addresses.join base.baseUrl "feed" = .ok url := ⟨_, rfl⟩
  rw [hjoin] at hrequests
  obtain ⟨request, hrequest, hmethod, -, hvalues, -⟩ := hrequests
  have haccept : "accept".map Char.toLower = "accept" := by decide +kernel
  have hid : "last-event-id".map Char.toLower = "last-event-id" := by decide +kernel
  have hvalue := hvalues "accept"
  have hvalue' := hvalues "last-event-id"
  rw [haccept] at hvalue
  rw [hid] at hvalue'
  exact ⟨hbase, hmem, request, hrequest, hmethod, hvalue.trans (by decide +kernel),
    hvalue'.trans (by decide +kernel)⟩

end Client

end EventStream
