import EventStream.Client.Configuration
/-!
# Configurations that can be made

A configuration is made from a base address and from settings, and settings that are refused leave
it as it was. So what holds of the configuration for every base address, and goes through every
setting that is accepted, holds of all configurations, whatever was tried on the way.

## Main definitions

* `Configuration.IsMade` — a configuration that can be made

## Main results

* `IsMade.induction` — what goes through every accepted setting holds of all configurations
* `IsMade.headers` — the values of the headers are single lines of ASCII
-/

namespace EventStream.Configuration

variable {α : Type}

/-- The configuration comes from a base address and from settings, refused ones among them. -/
def IsMade [Addresses α] (c : Configuration α) : Prop :=
  ∃ input base settings, ofBaseUrl input = .ok base ∧ base.setAll settings = c

variable {c c' : Configuration α} {setting : Setting} {input : String}

theorem setAll_cons (c : Configuration α) (setting : Setting) (settings : List Setting) :
    c.setAll (setting :: settings) = ((c.set setting).toOption.getD c).setAll settings := rfl

/-- What goes through every setting that is accepted goes through several settings, whichever of
them are accepted. -/
theorem setAll_induction {motive : Configuration α → Prop}
    (set : ∀ {c setting c'}, motive c → c.set setting = .ok c' → motive c') (h : motive c)
    (settings : List Setting) : motive (c.setAll settings) := by
  induction settings generalizing c with
  | nil => exact h
  | cons setting settings ih =>
    rw [setAll_cons]
    apply ih
    -- a setting that is refused changes nothing
    rcases hset : c.set setting with _ | c'
    · exact h
    · exact set h hset

@[elab_as_elim]
theorem IsMade.induction [Addresses α] {motive : Configuration α → Prop} (h : c.IsMade)
    (ofBaseUrl : ∀ {input c}, ofBaseUrl input = .ok c → motive c)
    (set : ∀ {c setting c'}, motive c → c.set setting = .ok c' → motive c') : motive c := by
  obtain ⟨input, base, settings, hbase, rfl⟩ := h
  exact setAll_induction set (ofBaseUrl hbase) settings

theorem headers_of_ofBaseUrl [Addresses α] (h : ofBaseUrl input = .ok c) : c.headers = [] := by
  unfold ofBaseUrl at h
  split at h
  · cases h
  · split at h
    · obtain rfl := Except.ok.inj h
      rfl
    · cases h

/-- A setting that is accepted leaves the headers alone or adds one to them. The value of that one
is a single line of ASCII. -/
theorem headers_of_set (h : c.set setting = .ok c') :
    c'.headers = c.headers ∨
      ∃ name value, setting = .header name value ∧ (IsAscii value ∧ IsSingleLine value) ∧
        c'.headers = c.headers ++ [⟨name.map Char.toLower, value⟩] := by
  cases setting with
  | header name value =>
    rw [set, withHeader] at h
    split at h
    · cases h
    · split at h
      · cases h
      · next hvalue =>
        obtain rfl := Except.ok.inj h
        exact Or.inr ⟨name, value, rfl, Decidable.not_not.1 hvalue, rfl⟩
  | lastEventId id =>
    obtain rfl := Except.ok.inj h
    exact Or.inl rfl
  | timeout timeout =>
    rw [set, withTimeout] at h
    split at h
    · cases h
    · obtain rfl := Except.ok.inj h
      exact Or.inl rfl

/-- The values of the headers are single lines of ASCII. -/
theorem IsMade.headers [Addresses α] (h : c.IsMade) :
    ∀ header ∈ c.headers, IsAscii header.value ∧ IsSingleLine header.value := by
  refine h.induction (fun hbase => ?_) (fun hheaders hset => ?_)
  · rw [headers_of_ofBaseUrl hbase]
    exact fun _ hmem => absurd hmem List.not_mem_nil
  · rcases headers_of_set hset with hsame | ⟨name, value, -, hvalue, hadded⟩
    · rwa [hsame]
    · rw [hadded]
      refine List.forall_mem_append.2 ⟨hheaders, ?_⟩
      exact fun header hmem => List.mem_singleton.1 hmem ▸ hvalue

end EventStream.Configuration
