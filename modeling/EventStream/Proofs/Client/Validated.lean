import EventStream.Proofs.Client.Requested
import EventStream.Proofs.Text.Utf8
/-!
# What a configuration holds

Each setting is checked when it is made, and changes no other one. So whatever was tried on the way,
a configuration holds what the accepted settings have put there: the base address of the start, all
headers in order, and of everything else what was set last. The names of headers are looked at byte
by byte; since a token is ASCII, this refuses what a look at the characters would refuse.

## Main definitions

* `IsTokenByte` — a byte of which the name of a header can consist
* `Configuration.Validated` — what has been checked of a configuration

## Main results

* `isToken_iff_bytes` — the names of headers, byte by byte
* `withHeader_eq_error_iff`, `withTimeout_eq_error_iff` — what is refused, and how
* `IsMade.validated` — every configuration has been checked
* `field_setAll` — where settings replace one another, the last one stays
* `validated_setAll` — what a configuration holds after any settings
-/

namespace EventStream

/-! ### Names -/

/-- A byte of a token: a digit, a letter, or one of fifteen marks. -/
def IsTokenByte (b : UInt8) : Prop :=
  0x30 ≤ b ∧ b ≤ 0x39 ∨ 0x41 ≤ b ∧ b ≤ 0x5a ∨ 0x61 ≤ b ∧ b ≤ 0x7a ∨
    b ∈ Text.encode "!#$%&\x27*+-.^_\x60|~"

instance (b : UInt8) : Decidable (IsTokenByte b) :=
  inferInstanceAs (Decidable (_ ∨ _))

variable {c : Char} {b : UInt8} {name value : String}

/-- The marks are ASCII, and so are digits and letters. -/
theorem toNat_lt_of_isTokenChar (h : IsTokenChar c) : c.toNat < 0x80 := by
  rcases h with halphanum | hmark
  · have hbelow : ∀ high : UInt32, high.toNat < 0x80 → c.val ≤ high → c.toNat < 0x80 :=
      fun _ hhigh hc => Nat.lt_of_le_of_lt (UInt32.le_iff_toNat_le.1 hc) hhigh
    rcases Bool.or_eq_true_iff.1 halphanum with halpha | hdigit
    · rcases Bool.or_eq_true_iff.1 halpha with hupper | hlower
      · exact hbelow 'Z'.val (by decide) (of_decide_eq_true hupper).2
      · exact hbelow 'z'.val (by decide) (of_decide_eq_true (Bool.and_eq_true_iff.1 hlower).2)
    · exact hbelow '9'.val (by decide) (of_decide_eq_true (Bool.and_eq_true_iff.1 hdigit).2)
  · have hmarks : IsAscii "!#$%&\x27*+-.^_\x60|~" := by decide +kernel
    exact hmarks c hmark

theorem toNat_lt_of_isTokenByte (h : IsTokenByte b) : b.toNat < 0x80 := by
  have hbytes : ∀ n < 256, IsTokenByte (UInt8.ofNat n) → n < 0x80 := by decide +kernel
  apply hbytes b.toNat b.toNat_lt
  rwa [UInt8.ofNat_toNat]

/-- In ASCII, characters and bytes are the same. -/
theorem asciiAlike_isToken : Text.AsciiAlike IsTokenByte IsTokenChar where
  byte _ := toNat_lt_of_isTokenByte
  char _ := toNat_lt_of_isTokenChar
  iff := by decide +kernel

/-- A token is a text that is not empty and has no other bytes than those of tokens. -/
theorem isToken_iff_bytes : IsToken name ↔ name ≠ "" ∧ ∀ b ∈ Text.encode name, IsTokenByte b :=
  and_congr_right fun _ => (asciiAlike_isToken.forall_mem_encode_iff name).symm

/-- So a text that is a token is ASCII to begin with. -/
theorem IsToken.isAscii (h : IsToken name) : IsAscii name :=
  fun c hc => toNat_lt_of_isTokenChar (h.2 c hc)

/-- In lower case a token is still one. -/
theorem IsToken.lower (h : IsToken name) : IsToken (name.map Char.toLower) := by
  have hchars : ∀ n < 0x80, IsTokenChar (Char.ofNat n) → IsTokenChar (Char.ofNat n).toLower := by
    decide +kernel
  refine ⟨fun hempty => h.1 ?_, fun c hc => ?_⟩
  · rw [← String.toList_eq_nil_iff] at hempty ⊢
    rwa [String.toList_map, List.map_eq_nil_iff] at hempty
  · rw [String.toList_map] at hc
    obtain ⟨c, hmem, rfl⟩ := List.mem_map.1 hc
    have hlower := hchars c.toNat (h.isAscii c hmem)
    rw [Char.ofNat_toNat] at hlower
    exact hlower (h.2 c hmem)

namespace Configuration

variable {α : Type} {c c' base : Configuration α} {setting : Setting} {input : String} {timeout : Duration}
  {e : ConfigurationError}

/-! ### Single settings -/

/-- Exactly a token with a single line of ASCII is accepted as a header, and it is added behind the
others. -/
theorem withHeader_eq_ok_iff : c.withHeader name value = .ok c' ↔
    IsToken name ∧ IsAscii value ∧ IsSingleLine value ∧
      c' = { c with headers := c.headers ++ [Header.lower ⟨name, value⟩] } := by
  unfold withHeader
  by_cases hname : IsToken name
  · by_cases hvalue : IsAscii value ∧ IsSingleLine value
    · rw [if_neg (not_not_intro hname), if_neg (not_not_intro hvalue), Except.ok.injEq]
      exact ⟨fun h => ⟨hname, hvalue.1, hvalue.2, h.symm⟩, fun h => h.2.2.2.symm⟩
    · rw [if_neg (not_not_intro hname), if_pos hvalue]
      exact ⟨nofun, fun h => absurd ⟨h.2.1, h.2.2.1⟩ hvalue⟩
  · rw [if_pos hname]
    exact ⟨nofun, fun h => absurd h.1 hname⟩

/-- A name that is no token is reported whatever the value is. Of a token, a value is reported that
is not ASCII or has a line end in it. -/
theorem withHeader_eq_error_iff : c.withHeader name value = .error e ↔
    ¬ IsToken name ∧ e = .invalidHeaderName name ∨
      IsToken name ∧ ¬ (IsAscii value ∧ IsSingleLine value) ∧ e = .invalidHeaderValue name := by
  unfold withHeader
  by_cases hname : IsToken name
  · by_cases hvalue : IsAscii value ∧ IsSingleLine value
    · rw [if_neg (not_not_intro hname), if_neg (not_not_intro hvalue)]
      exact ⟨nofun, fun h => h.elim (fun h => absurd hname h.1) fun h => absurd hvalue h.2.1⟩
    · rw [if_neg (not_not_intro hname), if_pos hvalue, Except.error.injEq]
      exact ⟨fun h => Or.inr ⟨hname, hvalue, h.symm⟩,
        fun h => h.elim (fun h => absurd hname h.1) fun h => h.2.2.symm⟩
  · rw [if_pos hname, Except.error.injEq]
    exact ⟨fun h => Or.inl ⟨hname, h.symm⟩,
      fun h => h.elim (fun h => h.2.symm) fun h => absurd h.1 hname⟩

/-- Exactly a timeout of some length is accepted. -/
theorem withTimeout_eq_ok_iff : c.withTimeout timeout = .ok c' ↔
    timeout ≠ .ofParts 0 0 ∧ c' = { c with timeout } := by
  unfold withTimeout
  split
  · next hzero => exact ⟨nofun, fun h => absurd hzero h.1⟩
  · next hzero =>
    rw [Except.ok.injEq]
    exact ⟨fun h => ⟨hzero, h.symm⟩, fun h => h.2.symm⟩

theorem withTimeout_eq_error_iff : c.withTimeout timeout = .error e ↔
    timeout = .ofParts 0 0 ∧ e = .zeroTimeout := by
  unfold withTimeout
  split
  · next hzero =>
    rw [Except.error.injEq]
    exact ⟨fun h => ⟨hzero, h.symm⟩, fun h => h.2.symm⟩
  · next hzero => exact ⟨nofun, fun h => absurd h.1 hzero⟩

theorem ofBaseUrl_eq_ok_iff [Addresses α] : ofBaseUrl input = .ok base ↔
    Addresses.parse input = .ok base.baseUrl ∧
      (Addresses.scheme base.baseUrl = "http" ∨ Addresses.scheme base.baseUrl = "https") ∧
      base = { baseUrl := base.baseUrl } := by
  unfold ofBaseUrl
  cases (Addresses.parse input : Except String α) with
  | error reason => exact ⟨nofun, fun h => nomatch h.1⟩
  | ok url =>
    dsimp only
    split
    · next hscheme =>
      rw [Except.ok.injEq, Except.ok.injEq]
      constructor
      · rintro rfl
        exact ⟨rfl, hscheme, rfl⟩
      · rintro ⟨rfl, -, hbase⟩
        exact hbase.symm
    · next hscheme =>
      refine ⟨nofun, fun h => ?_⟩
      rw [Except.ok.inj h.1] at hscheme
      exact absurd h.2.1 hscheme

/-! ### All settings -/

/-- What has been checked of a configuration. -/
structure Validated [Addresses α] (c : Configuration α) : Prop where
  scheme : Addresses.scheme c.baseUrl = "http" ∨ Addresses.scheme c.baseUrl = "https"
  timeout : c.timeout ≠ .ofParts 0 0
  headers : ∀ header ∈ c.headers,
    IsToken header.name ∧ IsAscii header.value ∧ IsSingleLine header.value

theorem validated_of_ofBaseUrl [Addresses α] (h : ofBaseUrl input = .ok c) : c.Validated := by
  obtain ⟨-, hscheme, hc⟩ := ofBaseUrl_eq_ok_iff.1 h
  have htimeout : (Duration.ofParts 30 0) ≠ .ofParts 0 0 := by decide
  rw [hc]
  exact ⟨hscheme, htimeout, fun _ hmem => absurd hmem List.not_mem_nil⟩

/-- A setting that is accepted has been checked, and the others stay as they are. -/
theorem Validated.set [Addresses α] (h : c.Validated) (hset : c.set setting = .ok c') : c'.Validated := by
  cases setting with
  | header name value =>
    obtain ⟨hname, hascii, hline, rfl⟩ := withHeader_eq_ok_iff.1 hset
    refine ⟨h.scheme, h.timeout, List.forall_mem_append.2 ⟨h.headers, ?_⟩⟩
    exact List.forall_mem_singleton.2 ⟨hname.lower, hascii, hline⟩
  | lastEventId id =>
    obtain rfl := Except.ok.inj hset
    exact ⟨h.scheme, h.timeout, h.headers⟩
  | timeout timeout =>
    obtain ⟨hne, rfl⟩ := withTimeout_eq_ok_iff.1 hset
    exact ⟨h.scheme, hne, h.headers⟩

/-- Every configuration has been checked, whatever was tried on the way. -/
theorem IsMade.validated [Addresses α] (h : c.IsMade) : c.Validated :=
  h.induction validated_of_ofBaseUrl Validated.set

/-- Where each setting that is accepted replaces what was there before, the last one stays. -/
theorem field_setAll {β : Type} (field : Configuration α → β) (given? : Setting → Option β)
    (h : ∀ c setting, field ((c.set setting).toOption.getD c) = (given? setting).getD (field c))
    (c : Configuration α) (settings : List Setting) :
    field (c.setAll settings) = (settings.filterMap given?).getLast?.getD (field c) := by
  induction settings generalizing c with
  | nil => rfl
  | cons setting settings ih =>
    rw [setAll_cons, ih, h]
    cases hgiven : given? setting with
    | none => rw [List.filterMap_cons_none hgiven, Option.getD_none]
    | some value =>
      rw [List.filterMap_cons_some hgiven, List.getLast?_cons, Option.getD_some, Option.getD_some]

theorem timeout_setAll (c : Configuration α) (settings : List Setting) :
    (c.setAll settings).timeout =
      (settings.filterMap Setting.timeout?).getLast?.getD c.timeout := by
  refine field_setAll Configuration.timeout Setting.timeout? (fun c setting => ?_) c settings
  rw [set_getD]

theorem lastEventId_setAll (c : Configuration α) (settings : List Setting) :
    (c.setAll settings).lastEventId =
      ((settings.filterMap Setting.lastEventId?).getLast?).or c.lastEventId := by
  have hlast := field_setAll Configuration.lastEventId
    (fun setting => setting.lastEventId?.map some) (fun c setting => ?_) c settings
  · rw [hlast, ← List.map_filterMap, List.getLast?_map]
    cases (settings.filterMap Setting.lastEventId?).getLast? <;> rfl
  · rw [set_getD]
    cases setting.lastEventId? <;> rfl

/-- What a configuration holds, whatever settings were tried. The base address is the one it was
made with, which can be read and has a supported scheme. The timeout is the last one of some length,
or else half a minute. The headers are those that were accepted, in order and as often as they were
given, with their names in lower case; each name is a token and each value a single line of ASCII.
The identifier is the last one. As for the single settings: a header is refused for its name exactly
if that is no token, and otherwise for its value exactly if that is not a single line of ASCII; a
timeout is refused exactly if it has no length; and each accepted setting changes one thing only.
Tokens are ASCII, and are known by their bytes. -/
theorem validated_setAll [Addresses α] (hbase : ofBaseUrl input = .ok base) (settings : List Setting) :
    (Addresses.parse input = .ok base.baseUrl ∧ (base.setAll settings).baseUrl = base.baseUrl ∧
      (Addresses.scheme base.baseUrl = "http" ∨ Addresses.scheme base.baseUrl = "https")) ∧
    ((base.setAll settings).timeout ≠ .ofParts 0 0 ∧
      (base.setAll settings).timeout =
        (settings.filterMap Setting.timeout?).getLast?.getD (.ofParts 30 0)) ∧
    ((base.setAll settings).headers = (settings.filterMap Setting.header?).map Header.lower ∧
      ∀ header ∈ (base.setAll settings).headers,
        IsToken header.name ∧ IsAscii header.value ∧ IsSingleLine header.value) ∧
    (base.setAll settings).lastEventId = (settings.filterMap Setting.lastEventId?).getLast? ∧
    (∀ (c : Configuration α) (name value : String),
      (∀ c', c.withHeader name value = .ok c' ↔
        IsToken name ∧ IsAscii value ∧ IsSingleLine value ∧
          c' = { c with headers := c.headers ++ [Header.lower ⟨name, value⟩] }) ∧
      ∀ e, c.withHeader name value = .error e ↔
        ¬ IsToken name ∧ e = .invalidHeaderName name ∨
          IsToken name ∧ ¬ (IsAscii value ∧ IsSingleLine value) ∧ e = .invalidHeaderValue name) ∧
    (∀ (c : Configuration α) (timeout : Duration),
      (∀ c', c.withTimeout timeout = .ok c' ↔
        timeout ≠ .ofParts 0 0 ∧ c' = { c with timeout }) ∧
      ∀ e, c.withTimeout timeout = .error e ↔ timeout = .ofParts 0 0 ∧ e = .zeroTimeout) ∧
    (∀ (c : Configuration α) (id : String),
      c.set (.lastEventId id) = .ok { c with lastEventId := some id }) ∧
    ∀ name, (IsToken name ↔ name ≠ "" ∧ ∀ b ∈ Text.encode name, IsTokenByte b) ∧
      (IsToken name → IsAscii name) := by
  have hmade : (base.setAll settings).IsMade := ⟨input, base, settings, hbase, rfl⟩
  obtain ⟨hparse, hscheme, hstart⟩ := ofBaseUrl_eq_ok_iff.1 hbase
  have htimeout := timeout_setAll base settings
  have hid := lastEventId_setAll base settings
  -- at the start nothing has been set
  have hstart_timeout : base.timeout = .ofParts 30 0 := congrArg Configuration.timeout hstart
  have hstart_id : base.lastEventId = none := congrArg Configuration.lastEventId hstart
  rw [hstart_timeout] at htimeout
  rw [hstart_id, Option.or_none] at hid
  refine ⟨⟨hparse, baseUrl_setAll base settings, hscheme⟩, ⟨hmade.validated.timeout, htimeout⟩,
    ⟨?_, hmade.validated.headers⟩, hid, ?_, ?_, fun _ _ => rfl, fun name => ?_⟩
  · rw [headers_setAll, headers_of_ofBaseUrl hbase, List.nil_append]
  · exact fun c name value => ⟨fun _ => withHeader_eq_ok_iff, fun _ => withHeader_eq_error_iff⟩
  · exact fun c timeout => ⟨fun _ => withTimeout_eq_ok_iff, fun _ => withTimeout_eq_error_iff⟩
  · exact ⟨isToken_iff_bytes, IsToken.isAscii⟩

/-- Of each kind of setting some are refused, and others are given twice. A letter beyond ASCII is
not part of a name, not even one that would be in lower case. -/
theorem validated_setAll_refused :
    let base : Configuration Url :=
      { baseUrl := { scheme := "http", host := some (.name "localhost"), path := .segments [""] } }
    let settings : List Setting :=
      [.header "" "a", .timeout (.ofParts 5 0), .header "X-K" "a\nb", .header "X-K" "a",
        .timeout (.ofParts 0 0), .header "x-K" "a", .lastEventId "1", .header "x-k" "b",
        .lastEventId "2"]
    ofBaseUrl "http://localhost/" = .ok base ∧
    (base.setAll settings).timeout = .ofParts 5 0 ∧
    (base.setAll settings).headers = [⟨"x-k", "a"⟩, ⟨"x-k", "b"⟩] ∧
    (base.setAll settings).lastEventId = some "2" ∧
    base.withHeader "" "\n" = .error (.invalidHeaderName "") ∧
    base.withHeader "X-K" "a\nb" = .error (.invalidHeaderValue "X-K") := by
  intro base settings
  have hbase : ofBaseUrl "http://localhost/" = .ok base := rfl
  obtain ⟨-, ⟨-, htimeout⟩, ⟨hheaders, -⟩, hid, hheader, -⟩ := validated_setAll hbase settings
  have hname : ¬ IsToken "" := fun h => h.1 rfl
  have hvalue : IsToken "X-K" ∧ ¬ (IsAscii "a\nb" ∧ IsSingleLine "a\nb") := by decide +kernel
  exact ⟨hbase, htimeout.trans (by decide +kernel), hheaders.trans (by decide +kernel),
    hid.trans (by decide +kernel), ((hheader _ _ _).2 _).2 (Or.inl ⟨hname, rfl⟩),
    ((hheader _ _ _).2 _).2 (Or.inr ⟨hvalue.1, hvalue.2, rfl⟩)⟩

end Configuration

end EventStream
