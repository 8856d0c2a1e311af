import Scannerless.Span

/-!
# Result values

What parsers hand on. A value is nothing, a truth value, an integer, a text, a tuple of values, or
a token: a value with a label and the span it was read from. The library looks into values only
where a text is joined from parts; everything else is for the authors of grammars.
-/
namespace Scannerless

/-- The result of a parser. -/
inductive Value where
  | nothing
  | bool (b : Bool)
  | int (n : Int)
  | text (s : String)
  | tuple (items : List Value)
  | token (label : String) (value : Value) (span : Span)

namespace Value

def kind : Value → Kind
  | nothing => .nothing
  | bool _ => .bool
  | int _ => .int
  | text _ => .text
  | tuple _ => .tuple
  | token .. => .token

def isNothing : Value → Bool
  | nothing => true
  | _ => false

mutual

/-- Holds of two values of one kind and the same content. -/
def same : Value → Value → Bool
  | nothing, nothing => true
  | bool a, bool b => a == b
  | int a, int b => a == b
  | text a, text b => a == b
  | tuple a, tuple b => sameItems a b
  | token k v s, token l w t => k == l && same v w && s == t
  | _, _ => false

/-- Holds of two lists of the same values in the same order. -/
def sameItems : List Value → List Value → Bool
  | [], [] => true
  | a :: as, b :: bs => same a b && sameItems as bs
  | _, _ => false

end

instance : BEq Value := ⟨same⟩

def item (index : Nat) : Value → Value
  | tuple items => items.getD index nothing
  | _ => nothing

/-- The first item of a tuple or the first character of a text, or nothing. -/
def first : Value → Value
  | tuple (v :: _) => v
  | text s =>
    match s.toList with
    | c :: _ => text (String.singleton c)
    | [] => nothing
  | _ => nothing

/-- The number of items of a tuple or of characters of a text. -/
def length? : Value → Option Nat
  | tuple items => some items.length
  | text s => some s.length
  | _ => none

/-- Appends texts to `joined`; `index` is the place of the first of them in the whole tuple. -/
def joinFrom : (index : Nat) → (joined : String) → List Value → Except Fault String
  | _, joined, [] => .ok joined
  | index, joined, text s :: rest => joinFrom (index + 1) (joined ++ s) rest
  | index, _, v :: _ => .error (.itemNotText index v.kind)

/-- Concatenates a tuple of texts; a text is its own concatenation, and nothing else has one. -/
def join : Value → Except Fault Value
  | text s => .ok (text s)
  | tuple items => text <$> joinFrom 0 "" items
  | _ => .error .notJoinable

/-- The texts `ss` join to their concatenation behind what is joined already. -/
theorem joinFrom_map_text (index : Nat) (joined : String) (ss : List String) :
    joinFrom index joined (ss.map text) = .ok (joined ++ String.join ss) := by
  induction ss generalizing index joined with
  | nil => simp [joinFrom]
  | cons s ss ih => simp [joinFrom, ih, String.join_cons, String.append_assoc]

/-- The texts of single characters join to the text of the characters. -/
theorem join_singletons (ds : List Char) :
    join (tuple (ds.map fun d => text (String.singleton d))) =
      .ok (text (String.ofList ds)) := by
  have hmap : (ds.map fun d => text (String.singleton d)) =
      (ds.map String.singleton).map text := by rw [List.map_map]; rfl
  have hjoin : String.join (ds.map String.singleton) = String.ofList ds := by
    rw [← String.toList_inj, String.toList_join, List.flatMap_map]
    simp
  rw [join, hmap, joinFrom_map_text, String.empty_append, hjoin]
  rfl

end Value

end Scannerless
