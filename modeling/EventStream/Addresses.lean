import EventStream.Url.Ignored
/-!
# Kinds of addresses

A client reads an address from a text, resolves paths against it, and looks at its scheme. Which
texts denote addresses, and which ones, is not for a client to settle. So clients are made for any
kind of addresses of which these three are given, and what is shown of clients holds for every kind.
Only the scheme of a request takes more to know; what it takes has a name, and is asked for there.

## Main definitions

* `Addresses` — a kind of addresses: how they are read and joined, and which schemes they have
* `OwnScheme` — the scheme that a text has of its own
* `Addresses.JoinsByScheme` — a kind where the scheme of a join is the one that the text has of its
  own, or else that of the base
-/

namespace EventStream

/-- A kind of addresses. A text that does not denote one is refused with a reason in words. -/
class Addresses (α : Type) where
  /-- The address that a text denotes on its own. -/
  parse (text : String) : Except String α
  /-- The address that a text denotes relative to another one. -/
  join (base : α) (text : String) : Except String α
  /-- The scheme of an address. -/
  scheme (address : α) : String

/-- A character that may occur in a scheme behind its first letter. -/
def IsSchemeChar (c : Char) : Prop := c.isAlphanum ∨ c = '+' ∨ c = '-' ∨ c = '.'

instance (c : Char) : Decidable (IsSchemeChar c) :=
  inferInstanceAs (Decidable (_ ∨ _))

/-- The text has this scheme of its own: blanks around it and line ends within it apart, it starts
with a letter, and what follows that up to the first colon are letters, digits and certain marks. -/
def OwnScheme (text scheme : String) : Prop :=
  ∃ first more rest,
    Url.dropIgnored (Url.trimBlanks text.toList) = first :: (more ++ ':' :: rest) ∧
    first.isAlpha ∧ (∀ c ∈ more, IsSchemeChar c) ∧
    scheme = String.ofList ((first :: more).map Char.toLower)

/-- What a join does to the scheme. -/
structure Addresses.JoinsByScheme (α : Type) [Addresses α] : Prop where
  /-- An absolute text, one with a scheme of its own, replaces the base together with its
  scheme. -/
  replaced {base address : α} {text own : String} (hown : OwnScheme text own)
    (h : join base text = .ok address) : scheme address = own
  /-- Any other text is relative, and the scheme of the base is kept. -/
  kept {base address : α} {text : String} (hown : ∀ own, ¬ OwnScheme text own)
    (h : join base text = .ok address) : scheme address = scheme base

end EventStream
