import Mathlib.Logic.Relation
import Scannerless.Parser.Run

/-!
# Which parsers a run can come to

A parser calls its parts, whatever the continuation of a chain may give, and the definition that it
mentions. Laws about runs assume something of every parser that the first one reaches in this way;
recursion through definitions is part of it.
-/
namespace Scannerless.Parser

/-- `Calls definitions p q` holds where one level of `p` may run `q`. -/
inductive Calls (definitions : Definitions) : Parser → Parser → Prop where
  | sequence {parts : List Parser} {dropNothing : Bool} {part : Parser} (h : part ∈ parts) :
      Calls definitions (.sequence parts dropNothing) part
  | choice {alternatives : List Parser} {alternative : Parser} (h : alternative ∈ alternatives) :
      Calls definitions (.choice alternatives) alternative
  | chainFirst {first : Parser} {next : Value → Parser} :
      Calls definitions (.chain first next) first
  | chainNext {first : Parser} {next : Value → Parser} (v : Value) :
      Calls definitions (.chain first next) (next v)
  | many {body : Parser} : Calls definitions (.many body) body
  | many1 {body : Parser} : Calls definitions (.many1 body) body
  | exactly {count : Nat} {body : Parser} : Calls definitions (.exactly count body) body
  | upTo {count : Nat} {body : Parser} : Calls definitions (.upTo count body) body
  | untilStop {stop body : Parser} : Calls definitions (.untilStop stop body) stop
  | untilBody {stop body : Parser} : Calls definitions (.untilStop stop body) body
  | optional {body : Parser} : Calls definitions (.optional body) body
  | peek {body : Parser} : Calls definitions (.peek body) body
  | map {body : Parser} {transform : Value → Outcome Value} :
      Calls definitions (.map body transform) body
  | mapIndexed {body : Parser} {transform : Value → Int → Outcome Value} :
      Calls definitions (.mapIndexed body transform) body
  | mapError {body : Parser} {explain : Cursor → Outcome Complaint} :
      Calls definitions (.mapError body explain) body
  | tagged {body : Parser} {label : String} : Calls definitions (.tagged body label) body
  | named {body : Parser} {name : String} : Calls definitions (.named body name) body
  | definition {name : String} : Calls definitions (.definition name) (definitions.find name)

/-- Every parser that `p` can come to run satisfies `node`. -/
def Throughout (definitions : Definitions) (node : Parser → Prop) (p : Parser) : Prop :=
  ∀ q, Relation.ReflTransGen (Calls definitions) p q → node q

namespace Throughout

variable {definitions : Definitions} {node : Parser → Prop} {p q : Parser}

theorem here (h : p.Throughout definitions node) : node p :=
  h p .refl

theorem call (h : p.Throughout definitions node) (hq : Calls definitions p q) :
    q.Throughout definitions node :=
  fun r hr => h r (.head hq hr)

/-- A grammar without recursion is checked from the outside in. -/
theorem intro (hnode : node p)
    (hcalls : ∀ q, Calls definitions p q → q.Throughout definitions node) :
    p.Throughout definitions node := by
  intro q hq
  rcases hq.cases_head with rfl | ⟨r, hcall, hrest⟩
  · exact hnode
  · exact hcalls r hcall q hrest

theorem mono {node' : Parser → Prop} (h : p.Throughout definitions node)
    (hnode : ∀ q, node q → node' q) : p.Throughout definitions node' :=
  fun q hq => hnode q (h q hq)

/-- Parsers that are closed under calls and all satisfy `node` satisfy it throughout. This is how a
recursive grammar is checked: the closed class holds its finitely many parsers. -/
theorem of_closed {closed : Parser → Prop} (hp : closed p) (hnode : ∀ q, closed q → node q)
    (hcall : ∀ q r, closed q → Calls definitions q r → closed r) :
    p.Throughout definitions node := by
  intro q hq
  have hclosed : closed q := by
    induction hq with
    | refl => exact hp
    | tail _ hstep ih => exact hcall _ _ ih hstep
  exact hnode q hclosed

end Throughout

/-- A cross in any number of parentheses, the smallest grammar that is recursive. -/
def nested : Definitions :=
  [("nested", .choice [.sequence [.literal "(", .definition "nested", .literal ")"] false,
    .literal "x"])]

theorem nested_throughout {node : Parser → Prop} (hdefinition : node (.definition "nested"))
    (hchoice : ∀ alternatives, node (.choice alternatives))
    (hsequence : ∀ parts, node (.sequence parts false)) (hliteral : ∀ text, node (.literal text)) :
    (definition "nested").Throughout nested node := by
  let closed : Parser → Prop := fun q => q = .definition "nested" ∨ q = nested.find "nested" ∨
    q = .sequence [.literal "(", .definition "nested", .literal ")"] false ∨
    ∃ text, q = .literal text
  refine Throughout.of_closed (show closed (.definition "nested") from .inl rfl) ?_ ?_
  · rintro q (rfl | rfl | rfl | ⟨text, rfl⟩)
    · exact hdefinition
    · exact hchoice _
    · exact hsequence _
    · exact hliteral text
  · rintro q r (rfl | rfl | rfl | ⟨text, rfl⟩) hcall
    · cases hcall
      exact .inr (.inl rfl)
    · cases hcall with
      | choice hmem =>
        simp only [List.mem_cons, List.not_mem_nil, or_false] at hmem
        rcases hmem with rfl | rfl
        · exact .inr (.inr (.inl rfl))
        · exact .inr (.inr (.inr ⟨"x", rfl⟩))
    · cases hcall with
      | sequence hmem =>
        simp only [List.mem_cons, List.not_mem_nil, or_false] at hmem
        rcases hmem with rfl | rfl | rfl
        · exact .inr (.inr (.inr ⟨"(", rfl⟩))
        · exact .inl rfl
        · exact .inr (.inr (.inr ⟨")", rfl⟩))
    · cases hcall

end Scannerless.Parser
