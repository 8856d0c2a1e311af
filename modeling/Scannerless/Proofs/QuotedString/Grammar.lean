import Scannerless.Text.Utf8

/-!
# Quoted strings

What a quoted string is and what it stands for: items between quotes, each of them a plain rune or
an escape. Every string can be quoted. Nothing here knows of parsers or bytes.
-/
namespace Scannerless.QuotedString

/-- A hexadecimal digit of either case and its value. -/
inductive HexDigit : Char → Nat → Prop where
  | decimal {i : Nat} (h : i < 10) : HexDigit (Char.ofNat ('0'.toNat + i)) i
  | lower {i : Nat} (h : i < 6) : HexDigit (Char.ofNat ('a'.toNat + i)) (10 + i)
  | upper {i : Nat} (h : i < 6) : HexDigit (Char.ofNat ('A'.toNat + i)) (10 + i)

/-- The escapes and what they stand for. A code point that is no surrogate stands for itself. -/
inductive Escape : List Char → Char → Prop where
  | quote : Escape ['\\', '"'] '"'
  | backslash : Escape ['\\', '\\'] '\\'
  | newline : Escape ['\\', 'n'] '\n'
  | tab : Escape ['\\', 't'] '\t'
  | carriageReturn : Escape ['\\', 'r'] '\r'
  | codePoint {a b c d : Char} {i j k l v : Nat} (ha : HexDigit a i) (hb : HexDigit b j)
      (hc : HexDigit c k) (hd : HexDigit d l) (hv : v = ((i * 16 + j) * 16 + k) * 16 + l)
      (hsurrogate : v < 0xD800 ∨ 0xDFFF < v) : Escape ['\\', 'u', a, b, c, d] (Char.ofNat v)

inductive Item : List Char → Char → Prop where
  | plain {c : Char} (hquote : c ≠ '"') (hbackslash : c ≠ '\\') : Item [c] c
  | escape {w : List Char} {c : Char} (h : Escape w c) : Item w c

inductive Items : List Char → List Char → Prop where
  | nil : Items [] []
  | cons {w ws : List Char} {c : Char} {cs : List Char} (h : Item w c) (hrest : Items ws cs) :
      Items (w ++ ws) (c :: cs)

/-- `Quotes q s`: the characters `q` are a quoted string that stands for `s`. -/
def Quotes (q : List Char) (s : String) : Prop :=
  ∃ body, q = '"' :: (body ++ ['"']) ∧ Items body s.toList

theorem Escape.eq_cons {ws : List Char} {c : Char} (h : Escape ws c) :
    ∃ x ds, ws = '\\' :: x :: ds ∧ (x ≠ 'u' → ds = []) := by
  cases h with
  | quote | backslash | newline | tab | carriageReturn => exact ⟨_, [], rfl, fun _ => rfl⟩
  | codePoint => exact ⟨'u', _, rfl, fun hu => absurd rfl hu⟩

theorem Item.eq_cons {ws : List Char} {c : Char} (h : Item ws c) :
    ∃ x ds, ws = x :: ds ∧ x ≠ '"' := by
  cases h with
  | plain hquote _ => exact ⟨c, [], rfl, hquote⟩
  | escape h =>
    obtain ⟨x, ds, rfl, _⟩ := h.eq_cons
    exact ⟨'\\', x :: ds, rfl, by decide⟩

theorem Items.length_le {ws cs : List Char} (h : Items ws cs) : cs.length ≤ ws.length := by
  induction h with
  | nil => exact Nat.le_refl 0
  | cons hitem _ ih =>
    obtain ⟨x, ds, rfl, _⟩ := hitem.eq_cons
    rw [List.length_append, List.length_cons, List.length_cons]
    omega

theorem Items.append {ws vs : List Char} {cs ds : List Char} (h : Items ws cs) (h' : Items vs ds) :
    Items (ws ++ vs) (cs ++ ds) := by
  induction h with
  | nil => exact h'
  | cons hitem _ ih =>
    rw [List.append_assoc]
    exact .cons hitem ih

/-- A character as it is written between quotes. -/
def escaped : Char → List Char
  | '"' => ['\\', '"']
  | '\\' => ['\\', '\\']
  | '\n' => ['\\', 'n']
  | '\t' => ['\\', 't']
  | '\r' => ['\\', 'r']
  | c => [c]

/-- A string in quotes. -/
def quoted (s : String) : List Char :=
  '"' :: (s.toList.flatMap escaped ++ ['"'])

theorem item_escaped (c : Char) : Item (escaped c) c := by
  unfold escaped
  split
  · exact .escape .quote
  · exact .escape .backslash
  · exact .escape .newline
  · exact .escape .tab
  · exact .escape .carriageReturn
  · rename_i hquote hbackslash _ _ _
    exact .plain hquote hbackslash

theorem items_flatMap_escaped (cs : List Char) : Items (cs.flatMap escaped) cs := by
  induction cs with
  | nil => exact .nil
  | cons c cs ih =>
    rw [List.flatMap_cons]
    exact .cons (item_escaped c) ih

theorem quotes_quoted (s : String) : Quotes (quoted s) s :=
  ⟨s.toList.flatMap escaped, rfl, items_flatMap_escaped s.toList⟩

end Scannerless.QuotedString
