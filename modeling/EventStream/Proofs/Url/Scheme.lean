import EventStream.Url.Reference
/-!
# Where the scheme of an address comes from

A text that is read relative to an address keeps the scheme of that address, unless it has a scheme
of its own. Which scheme the address has makes no difference to that: whatever stands in front of
the first colon is taken for a scheme if it looks like one.

## Main results

* `takeScheme_eq_some_iff` — what looks like a scheme
* `scheme_resolve` — reading keeps the scheme that a text has of its own
* `joinsByScheme_addresses` — the scheme of a join is the own one of the text, or that of the base
-/

namespace EventStream.Url

variable {toAscii : List UInt8 → Option (List Char)} {u base : Url} {scheme : String}
  {cs rest : List Char}

/-- Behind the first letter, a scheme goes on as long as its characters do, and a colon has to
follow. -/
theorem takeScheme_cons (first : Char) (cs : List Char) : takeScheme (first :: cs) =
    match cs.dropWhile (IsSchemeChar ·) with
    | ':' :: rest =>
      if first.isAlpha then
        some (String.ofList ((first :: cs.takeWhile (IsSchemeChar ·)).map Char.toLower), rest)
      else none
    | _ => none := by
  have hchars : (fun c => c.isAlphanum || c == '+' || c == '-' || c == '.') =
      fun c => decide (IsSchemeChar c) :=
    funext fun c => by
      rw [Bool.eq_iff_iff, decide_eq_true_iff]
      simp [IsSchemeChar, or_assoc]
  rw [← hchars]
  rfl

/-- What looks like a scheme is a letter, more characters of a scheme, and a colon. -/
theorem takeScheme_eq_some_iff : takeScheme cs = some (scheme, rest) ↔
    ∃ first more, cs = first :: (more ++ ':' :: rest) ∧ first.isAlpha ∧
      (∀ c ∈ more, IsSchemeChar c) ∧ scheme = String.ofList ((first :: more).map Char.toLower) := by
  cases cs with
  | nil => exact ⟨nofun, fun ⟨_, _, hcs, _⟩ => nomatch hcs⟩
  | cons first cs =>
    rw [takeScheme_cons]
    constructor
    · intro h
      split at h
      · next rest' hdrop =>
        split at h
        · next hfirst =>
          obtain ⟨rfl, rfl⟩ := Prod.mk.inj (Option.some.inj h)
          refine ⟨first, cs.takeWhile (IsSchemeChar ·), ?_, hfirst, fun c hc => ?_, rfl⟩
          · rw [← hdrop, List.takeWhile_append_dropWhile]
          · exact of_decide_eq_true (List.all_eq_true.1 List.all_takeWhile c hc)
        · cases h
      · cases h
    · rintro ⟨first, more, hcs, hfirst, hmore, rfl⟩
      obtain ⟨rfl, rfl⟩ := List.cons.inj hcs
      -- the characters of the scheme end in front of the colon
      have hall : ∀ c ∈ more, decide (IsSchemeChar c) = true := fun c hc =>
        decide_eq_true (hmore c hc)
      rw [List.dropWhile_append_of_pos hall, List.dropWhile_cons_of_neg (by decide),
        List.takeWhile_append_of_pos hall, List.takeWhile_cons_of_neg (by decide), List.append_nil]
      exact if_pos hfirst

/-! ### Reading keeps the scheme -/

@[simp] theorem scheme_withTail (u : Url) (cs : List Char) : (withTail u cs).scheme = u.scheme := by
  unfold withTail
  split <;> rfl

@[simp] theorem scheme_withPath (u : Url) (directory : List String) (cs : List Char) :
    (withPath u directory cs).scheme = u.scheme := by
  unfold withPath
  simp

@[simp] theorem scheme_filePath (host : Host) (cs : List Char) :
    (filePath host cs).scheme = "file" := by
  unfold filePath
  simp

theorem scheme_afterSlashes (h : afterSlashes toAscii scheme cs = .ok u) : u.scheme = scheme := by
  unfold afterSlashes at h
  cases hauthority : takeAuthority toAscii scheme cs with
  | error cause =>
    rw [hauthority] at h
    cases h
  | ok p =>
    rw [hauthority] at h
    simp only [bind, Except.bind] at h
    split at h
    · rw [← Except.ok.inj h, scheme_withTail]
    · rw [← Except.ok.inj h, scheme_withPath]

theorem scheme_afterPlainScheme (h : afterPlainScheme toAscii scheme cs = .ok u) : u.scheme = scheme := by
  unfold afterPlainScheme at h
  split at h
  · exact scheme_afterSlashes h
  · rw [← Except.ok.inj h, scheme_withPath]
  · rw [← Except.ok.inj h, scheme_withTail]

theorem scheme_relativeTo {segments : List String} (h : relativeTo toAscii base segments cs = .ok u) :
    u.scheme = base.scheme := by
  unfold relativeTo at h
  dsimp only at h
  split at h
  · rw [← Except.ok.inj h]
  · rw [← Except.ok.inj h]
  · rw [← Except.ok.inj h, scheme_withTail]
  · split at h
    · rw [← Except.ok.inj h, scheme_withPath]
    · rw [← Except.ok.inj h, scheme_withPath]
    · exact scheme_afterSlashes h
    · exact scheme_afterSlashes h

/-- A text with the scheme of the base can be relative to it, which keeps that scheme. -/
theorem scheme_afterSpecialScheme {base : Option Url}
    (h : afterSpecialScheme toAscii base scheme cs = .ok u) : u.scheme = scheme := by
  unfold afterSpecialScheme at h
  dsimp only at h
  split at h
  · split at h
    · next hrelative => rw [scheme_relativeTo h, hrelative.2]
    · exact scheme_afterSlashes h
  · exact scheme_afterSlashes h

theorem scheme_afterFileScheme (h : afterFileScheme toAscii cs = .ok u) : u.scheme = "file" := by
  unfold afterFileScheme at h
  split at h
  · dsimp only at h
    split at h
    · rw [← Except.ok.inj h, scheme_filePath]
    · generalize Host.parse toAscii true _ = parsed at h
      cases parsed with
      | error cause => cases h
      | ok host =>
        simp only [bind, Except.bind] at h
        split at h
        · rw [← Except.ok.inj h, scheme_filePath]
        · rw [← Except.ok.inj h, scheme_filePath]
  · rw [← Except.ok.inj h, scheme_filePath]

/-- What a text without a scheme leads to has the scheme of the base. -/
theorem scheme_join_of_takeScheme_eq_none {input : String}
    (hscheme : takeScheme (dropIgnored (trimBlanks input.toList)) = none)
    (h : join toAscii base input = .ok u) : u.scheme = base.scheme := by
  unfold join resolve at h
  dsimp only at h
  rw [hscheme] at h
  dsimp only at h
  split at h
  · exact scheme_relativeTo h
  · rw [← Except.ok.inj h]
  · cases h

/-- What a text with a scheme leads to has that scheme, relative to whatever. -/
theorem scheme_resolve {base : Option Url} {input : String}
    (hscheme : takeScheme (dropIgnored (trimBlanks input.toList)) = some (scheme, rest))
    (h : resolve toAscii base input = .ok u) : u.scheme = scheme := by
  unfold resolve at h
  dsimp only at h
  rw [hscheme] at h
  split at h
  · next heq =>
    obtain ⟨rfl, -⟩ := Prod.mk.inj (Option.some.inj heq)
    exact scheme_afterFileScheme h
  · next heq =>
    obtain ⟨rfl, rfl⟩ := Prod.mk.inj (Option.some.inj heq)
    split at h
    · exact scheme_afterSpecialScheme h
    · exact scheme_afterPlainScheme h
  · next heq => cases heq

/-- The messages of errors aside, addresses are joined as they are read. -/
theorem join_eq_ok_iff {input : String} :
    (addresses toAscii).join base input = .ok u ↔ join toAscii base input = .ok u := by
  change (join toAscii base input).mapError _ = _ ↔ _
  cases join toAscii base input with
  | error cause => exact ⟨nofun, nofun⟩
  | ok address =>
    exact ⟨fun h => congrArg _ (Except.ok.inj h), fun h => congrArg _ (Except.ok.inj h)⟩

/-- The scheme of a join is the one that the text has of its own, or else that of the base, however
domains are converted. -/
theorem joinsByScheme_addresses (toAscii : List UInt8 → Option (List Char)) :
    letI := addresses toAscii
    Addresses.JoinsByScheme Url := by
  letI := addresses toAscii
  constructor
  case replaced =>
    rintro base u text own ⟨first, more, rest, htake⟩ h
    exact scheme_resolve (takeScheme_eq_some_iff.2 ⟨first, more, htake⟩) (join_eq_ok_iff.1 h)
  case kept =>
    intro base u text hown h
    refine scheme_join_of_takeScheme_eq_none ?_ (join_eq_ok_iff.1 h)
    rw [Option.eq_none_iff_forall_ne_some]
    rintro ⟨scheme, rest⟩ htake
    obtain ⟨first, more, hscheme⟩ := takeScheme_eq_some_iff.1 htake
    exact hown scheme ⟨first, more, rest, hscheme⟩

end EventStream.Url
