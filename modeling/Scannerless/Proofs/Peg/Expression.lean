import Mathlib.Logic.Relation

/-!
# Parsing expressions

Parsing expression grammars with their big-step relation, over any nonterminals and any terminals.
An expression either matches from one offset up to another or fails, which are kept as `some` and
`none`. Nothing here knows of parsers or cursors.
-/
namespace Scannerless.Peg

/-- Parsing expressions over nonterminals `ν` and terminals `τ`. -/
inductive Expression (ν τ : Type) where
  | empty
  | terminal (t : τ)
  | nonterminal (x : ν)
  | seq (e f : Expression ν τ)
  | choice (e f : Expression ν τ)
  | star (e : Expression ν τ)
  | not (e : Expression ν τ)

namespace Expression

variable {ν τ : Type}

/-- The expression that always fails. -/
def fail : Expression ν τ := not empty

/-- The and-predicate: whether `e` would match, with nothing read. -/
def ahead (e : Expression ν τ) : Expression ν τ := not (not e)

/-- `e?`, which prefers to match. -/
def option (e : Expression ν τ) : Expression ν τ := choice e empty

/-- `e+`. -/
def plus (e : Expression ν τ) : Expression ν τ := seq e (star e)

/-- Expressions one after the other. -/
def seqAll : List (Expression ν τ) → Expression ν τ
  | [] => empty
  | e :: es => seq e (seqAll es)

/-- The first expression that matches. -/
def choiceAll : List (Expression ν τ) → Expression ν τ
  | [] => fail
  | e :: es => choice e (choiceAll es)

/-- `count` copies of `e`. -/
def copies (count : Nat) (e : Expression ν τ) : Expression ν τ :=
  seqAll (List.replicate count e)

/-- As many copies of `e` as match, `count` at most. -/
def atMost : (count : Nat) → (e : Expression ν τ) → Expression ν τ
  | 0, _ => empty
  | count + 1, e => option (seq e (atMost count e))

end Expression

/-- `Derives rules ends e o out`: at the offset `o` the expression `e` matches up to the offset in
`out`, or fails. A terminal ends where `ends` says, and a nonterminal does what its rule does;
without a rule it does nothing. -/
inductive Derives {ν τ : Type} (rules : ν → Option (Expression ν τ)) (ends : τ → Int → Option Int) :
    Expression ν τ → Int → Option Int → Prop where
  | empty (o : Int) : Derives rules ends .empty o (some o)
  | terminal (t : τ) (o : Int) : Derives rules ends (.terminal t) o (ends t o)
  | nonterminal {x : ν} {e : Expression ν τ} {o : Int} {out : Option Int} (hrule : rules x = some e)
      (h : Derives rules ends e o out) : Derives rules ends (.nonterminal x) o out
  | seq {e f : Expression ν τ} {o m : Int} {out : Option Int} (he : Derives rules ends e o (some m))
      (hf : Derives rules ends f m out) : Derives rules ends (.seq e f) o out
  | seqFails {e f : Expression ν τ} {o : Int} (he : Derives rules ends e o none) :
      Derives rules ends (.seq e f) o none
  | choiceFirst {e f : Expression ν τ} {o m : Int} (he : Derives rules ends e o (some m)) :
      Derives rules ends (.choice e f) o (some m)
  | choiceSecond {e f : Expression ν τ} {o : Int} {out : Option Int}
      (he : Derives rules ends e o none) (hf : Derives rules ends f o out) :
      Derives rules ends (.choice e f) o out
  | starStops {e : Expression ν τ} {o : Int} (he : Derives rules ends e o none) :
      Derives rules ends (.star e) o (some o)
  | starGoes {e : Expression ν τ} {o m : Int} {out : Option Int}
      (he : Derives rules ends e o (some m)) (hrest : Derives rules ends (.star e) m out) :
      Derives rules ends (.star e) o out
  | notFails {e : Expression ν τ} {o m : Int} (he : Derives rules ends e o (some m)) :
      Derives rules ends (.not e) o none
  | notMatches {e : Expression ν τ} {o : Int} (he : Derives rules ends e o none) :
      Derives rules ends (.not e) o (some o)

namespace Derives

variable {ν τ : Type} {rules : ν → Option (Expression ν τ)} {ends : τ → Int → Option Int}
  {e : Expression ν τ} {o m : Int} {out : Option Int}

theorem fail (o : Int) : Derives rules ends .fail o none :=
  .notFails (.empty o)

theorem ahead (h : Derives rules ends e o (some m)) : Derives rules ends (.ahead e) o (some o) :=
  .notMatches (.notFails h)

theorem aheadFails (h : Derives rules ends e o none) : Derives rules ends (.ahead e) o none :=
  .notFails (.notMatches h)

theorem choiceAll_fails {es : List (Expression ν τ)} (h : ∀ e ∈ es, Derives rules ends e o none) :
    Derives rules ends (.choiceAll es) o none := by
  induction es with
  | nil => exact .fail o
  | cons e es ih =>
    have hfirst := h e (List.mem_cons_self ..)
    exact .choiceSecond hfirst (ih fun e he => h e (List.mem_cons_of_mem _ he))

theorem choiceAll {before after : List (Expression ν τ)}
    (h : ∀ e ∈ before, Derives rules ends e o none) (he : Derives rules ends e o (some m)) :
    Derives rules ends (.choiceAll (before ++ e :: after)) o (some m) := by
  induction before with
  | nil => exact .choiceFirst he
  | cons first before ih =>
    have hfirst := h first (List.mem_cons_self ..)
    exact .choiceSecond hfirst (ih fun e he => h e (List.mem_cons_of_mem _ he))

/-- An expression does one thing at an offset, if it does anything. -/
theorem unique (h : Derives rules ends e o out) {out' : Option Int}
    (h' : Derives rules ends e o out') : out = out' := by
  induction h generalizing out' with
  | empty | terminal => cases h'; rfl
  | nonterminal hrule _ ih =>
    cases h' with
    | nonterminal hrule' he' =>
      obtain rfl := Option.some.inj (hrule.symm.trans hrule')
      exact ih he'
  | seq _ _ ihe ihf =>
    cases h' with
    | seq he' hf' =>
      obtain rfl := Option.some.inj (ihe he')
      exact ihf hf'
    | seqFails he' => cases ihe he'
  | seqFails _ ihe =>
    cases h' with
    | seq he' _ => cases ihe he'
    | seqFails _ => rfl
  | choiceFirst _ ihe =>
    cases h' with
    | choiceFirst he' => exact ihe he'
    | choiceSecond he' _ => cases ihe he'
  | choiceSecond _ _ ihe ihf =>
    cases h' with
    | choiceFirst he' => cases ihe he'
    | choiceSecond _ hf' => exact ihf hf'
  | starStops _ ihe =>
    cases h' with
    | starStops _ => rfl
    | starGoes he' _ => cases ihe he'
  | starGoes _ _ ihe ihrest =>
    cases h' with
    | starStops he' => cases ihe he'
    | starGoes he' hrest' =>
      obtain rfl := Option.some.inj (ihe he')
      exact ihrest hrest'
  | notFails _ ihe =>
    cases h' with
    | notFails _ => rfl
    | notMatches he' => cases ihe he'
  | notMatches _ ihe =>
    cases h' with
    | notFails he' => cases ihe he'
    | notMatches _ => rfl

end Derives

/-- What an expression does if nonterminals do what `N` says: the same relation, read off the
expression. A star takes as many steps as its body matches, and its body fails behind them. -/
def Denotes {ν τ : Type} (N : ν → Int → Option Int → Prop) (ends : τ → Int → Option Int) :
    Expression ν τ → Int → Option Int → Prop
  | .empty, o, out => out = some o
  | .terminal t, o, out => out = ends t o
  | .nonterminal x, o, out => N x o out
  | .seq e f, o, out =>
    (∃ m, Denotes N ends e o (some m) ∧ Denotes N ends f m out) ∨
      out = none ∧ Denotes N ends e o none
  | .choice e f, o, out =>
    (∃ m, out = some m ∧ Denotes N ends e o (some m)) ∨
      Denotes N ends e o none ∧ Denotes N ends f o out
  | .star e, o, out =>
    ∃ last, out = some last ∧ Denotes N ends e last none ∧
      Relation.ReflTransGen (fun a b => Denotes N ends e a (some b)) o last
  | .not e, o, out =>
    (∃ m, out = none ∧ Denotes N ends e o (some m)) ∨ out = some o ∧ Denotes N ends e o none

/-- A derivation denotes what it derives, for every `N` that follows the rules where they derive
something. -/
theorem Derives.denotes {ν τ : Type} {rules : ν → Option (Expression ν τ)}
    {ends : τ → Int → Option Int} {N : ν → Int → Option Int → Prop}
    (hN : ∀ x e o out, rules x = some e → Derives rules ends e o out → Denotes N ends e o out →
      N x o out)
    {e : Expression ν τ} {o : Int} {out : Option Int} (h : Derives rules ends e o out) :
    Denotes N ends e o out := by
  induction h with
  | empty | terminal => rfl
  | nonterminal hrule h ih => exact hN _ _ _ _ hrule h ih
  | seq _ _ ihe ihf => exact .inl ⟨_, ihe, ihf⟩
  | seqFails _ ihe => exact .inr ⟨rfl, ihe⟩
  | choiceFirst _ ihe => exact .inl ⟨_, rfl, ihe⟩
  | choiceSecond _ _ ihe ihf => exact .inr ⟨ihe, ihf⟩
  | starStops _ ihe => exact ⟨_, rfl, ihe, .refl⟩
  | starGoes _ _ ihe ihrest =>
    obtain ⟨last, hout, hstop, hsteps⟩ := ihrest
    exact ⟨last, hout, hstop, .head ihe hsteps⟩
  | notFails _ ihe => exact .inl ⟨_, rfl, ihe⟩
  | notMatches _ ihe => exact .inr ⟨rfl, ihe⟩

end Scannerless.Peg
