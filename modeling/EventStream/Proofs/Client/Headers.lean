import Std.Data.TreeMap.Lemmas
import EventStream.Client.Request
/-!
# The headers of a request

A request has for each name the value that was set last under that name. So each value of a request
is one of those that every request has, or the identifier to resume after, or one that the
configuration was given.

## Main results

* `Headers.getElem?_ofList` — the value under a name is the last one of that name
* `Configuration.exists_mem_of_request` — where the values of a request come from
-/

namespace EventStream

namespace Headers

/-- Headers that are set on top of others take the place of those with the same names. -/
theorem getElem?_foldl_insert (headers : List Header) (all : Headers) (name : String) :
    (headers.foldl (fun all header => all.insert header.name header.value) all)[name]? =
      (((headers.filter (·.name = name)).getLast?).map Header.value).or all[name]? := by
  induction headers generalizing all with
  | nil => rfl
  | cons header headers ih =>
    rw [List.foldl_cons, ih, Std.TreeMap.getElem?_insert]
    -- the first header counts only if none of that name follows
    by_cases h : header.name = name
    · simp [h, List.getLast?_cons]
    · simp [h]

/-- The value under a name is the last one of that name. -/
theorem getElem?_ofList (headers : List Header) (name : String) :
    (ofList headers)[name]? = ((headers.filter (·.name = name)).getLast?).map Header.value := by
  rw [ofList, getElem?_foldl_insert, Std.TreeMap.getElem?_emptyc, Option.or_none]

theorem mem_of_getElem?_ofList {headers : List Header} {name value : String}
    (h : (ofList headers)[name]? = some value) : ⟨name, value⟩ ∈ headers := by
  rw [getElem?_ofList, Option.map_eq_some_iff] at h
  obtain ⟨header, hlast, rfl⟩ := h
  obtain ⟨hmem, hname⟩ := List.mem_filter.1 (List.mem_of_getLast? hlast)
  rwa [← of_decide_eq_true hname]

end Headers

namespace Configuration

variable {α : Type} {c : Configuration α} {header : Header}

/-- The value of a header that every request has: it is fixed, or the identifier to resume after. -/
theorem value_of_mem_ownHeaders (h : header ∈ c.ownHeaders) :
    header.value ∈ [eventStreamType, "no-cache"] ∨
      c.lastEventId = some header.value ∧ IsAscii header.value := by
  rcases List.mem_append.1 h with hfixed | hid
  · exact Or.inl (List.mem_map_of_mem (f := Header.value) hfixed)
  · obtain ⟨id, hmem, rfl⟩ := List.mem_map.1 hid
    rw [Option.mem_toList, Option.filter_eq_some_iff] at hmem
    exact Or.inr ⟨hmem.1, of_decide_eq_true hmem.2⟩

/-- Where the values of a request come from. -/
theorem exists_mem_of_request [Addresses α] {path : String} {request : Request α}
    (h : c.request path = .ok request) {name value : String}
    (hvalue : request.headers[name]? = some value) : ⟨name, value⟩ ∈ c.ownHeaders ++ c.headers := by
  unfold Configuration.request at h
  split at h
  · cases h
  · obtain rfl := Except.ok.inj h
    exact Headers.mem_of_getElem?_ofList hvalue

end Configuration

end EventStream
