import Tickle.Proofs.Run.ElementIndex
import Tickle.Proofs.Value.IntegerResults

/-! # Which clause of `if` runs

The operands of `if` are clauses, and possibly a body for the case that none of their conditions is
true. The conditions are evaluated in order, each in the state that the one before it left, up to
the first that is true or fails. The body of that clause runs in the state behind its condition, and
nothing else does; if a condition fails, its error is all that is left of the command. -/

namespace Tickle

/-! ## Operands as they are written -/

/-- A clause of `if`: a condition, possibly the word `then`, and a body that is not that word. -/
structure IfClause where
  condition : String
  withThen : Bool
  body : String
  body_ne : body ≠ "then"

/-- What follows the clauses: nothing, a body behind the word `else`, or a body by itself that
cannot be taken for another clause. -/
inductive Otherwise where
  | absent
  | keyword (body : String)
  | bare (body : String) (ne_elseif : body ≠ "elseif") (ne_else : body ≠ "else")

namespace IfClause

/-- The body as it is written, with the word in front of it. -/
def bodyOperands (clause : IfClause) : List String :=
  if clause.withThen then ["then", clause.body] else [clause.body]

theorem skipThen_bodyOperands (clause : IfClause) (rest : List String) :
    Clauses.skipThen (clause.bodyOperands ++ rest) = clause.body :: rest := by
  unfold bodyOperands
  split
  · rfl
  · unfold Clauses.skipThen
    split
    · rename_i heq
      exact absurd (List.cons.inj heq).1 clause.body_ne
    · rfl

end IfClause

namespace Otherwise

def operands : Otherwise → List String
  | absent => []
  | keyword body => ["else", body]
  | bare body .. => [body]

def body? : Otherwise → Option String
  | absent => none
  | keyword body => some body
  | bare body .. => some body

end Otherwise

/-- Operands of `if` behind its first condition. -/
def afterCondition (clause : IfClause) : List IfClause → Otherwise → List String
  | [], otherwise => clause.bodyOperands ++ otherwise.operands
  | next :: more, otherwise =>
    clause.bodyOperands ++ "elseif" :: next.condition :: afterCondition next more otherwise

/-- Operands of `if` with at least one clause. -/
def ifOperands (first : IfClause) (more : List IfClause) (otherwise : Otherwise) : List String :=
  first.condition :: afterCondition first more otherwise

namespace Clauses

/-- The clauses as they are read: each condition stands with the body in front of it. -/
def written (clause : IfClause) : List IfClause → Otherwise → Clauses
  | [], otherwise =>
    match otherwise.body? with
    | none => .last clause.body
    | some body => .orElse clause.body body
  | next :: more, otherwise => .elseIf clause.body next.condition (written next more otherwise)

/-- What is read behind a body. -/
theorem read_of_skipThen {operands rest : List String} {body : String}
    (h : skipThen operands = body :: rest) :
    read operands =
      match rest with
      | [] => .last body
      | keyword :: rest =>
        if keyword = "elseif" then
          match rest with
          | [] => .last body
          | condition :: rest => .elseIf body condition (read rest)
        else if keyword = "else" then
          match rest with
          | [] => .last body
          | otherwise :: _ => .orElse body otherwise
        else .orElse body keyword := by
  rw [read.eq_def]
  split
  · rename_i hskip
    cases hskip.symm.trans h
  · rename_i hskip
    cases hskip.symm.trans h
    rfl
  · rename_i hskip
    cases hskip.symm.trans h
    rfl

theorem read_afterCondition (clause : IfClause) (more : List IfClause) (otherwise : Otherwise) :
    read (afterCondition clause more otherwise) = written clause more otherwise := by
  induction more generalizing clause with
  | nil =>
    rw [afterCondition, read_of_skipThen (clause.skipThen_bodyOperands _)]
    cases otherwise with
    | absent => rfl
    | keyword body => rfl
    | bare body ne_elseif ne_else =>
      simp [Otherwise.operands, written, Otherwise.body?, ne_elseif, ne_else]
  | cons next more ih =>
    rw [afterCondition, read_of_skipThen (clause.skipThen_bodyOperands _)]
    simp [written, ih]

end Clauses

namespace Env

open RunM

/-! ## Conditions in order -/

/-- The conditions of the clauses are false, one after the other, which takes `s` to `t`. -/
def Rejects (env : Env) (node : Node) : List IfClause → Run → Run → Prop
  | [], s, t => t = s
  | clause :: more, s, t => ∃ s', (env.evaluateCondition node clause.condition).Returns s false s' ∧
    env.Rejects node more s' t

/-- The conditions in front of one of the clauses are false, which takes `s` to `t`. -/
def ComesTo (env : Env) (node : Node) (clauses : List IfClause) (s : Run) (clause : IfClause)
    (t : Run) : Prop :=
  ∃ front back, clauses = front ++ clause :: back ∧ env.Rejects node front s t

variable {env : Env} {node : Node} {clause : IfClause} {clauses : List IfClause} {s s' t : Run}

theorem ComesTo.cons (h : (env.evaluateCondition node clause.condition).Returns s false s')
    {other : IfClause} (hother : env.ComesTo node clauses s' other t) :
    env.ComesTo node (clause :: clauses) s other t := by
  obtain ⟨front, back, rfl, hfront⟩ := hother
  exact ⟨clause :: front, back, rfl, s', h, hfront⟩

/-- The first condition is evaluated in any case. -/
theorem comesTo_first (env : Env) (node : Node) (clause : IfClause) (more : List IfClause)
    (s : Run) : env.ComesTo node (clause :: more) s clause s :=
  ⟨[], more, rfl, rfl⟩

/-- Conditions are false up to the end, or up to one that is true or fails. -/
theorem rejects_or_comesTo (env : Env) (node : Node) (clauses : List IfClause) (s : Run) :
    (∃ t, env.Rejects node clauses s t) ∨
    (∃ clause t u, env.ComesTo node clauses s clause t ∧
      (env.evaluateCondition node clause.condition).Returns t true u) ∨
    ∃ clause t e u, env.ComesTo node clauses s clause t ∧
      (env.evaluateCondition node clause.condition).Raises t e u := by
  induction clauses generalizing s with
  | nil => exact .inl ⟨s, rfl⟩
  | cons clause more ih =>
    have hfirst := env.comesTo_first node clause more s
    rcases returns_or_raises (env.evaluateCondition node clause.condition) s with
      ⟨condition, s', h⟩ | ⟨e, t, h⟩
    · cases condition with
      | true => exact .inr (.inl ⟨clause, s, s', hfirst, h⟩)
      | false =>
        rcases ih s' with ⟨t, ht⟩ | ⟨other, t, u, hcomes, hu⟩ | ⟨other, t, e, u, hcomes, hu⟩
        · exact .inl ⟨t, s', h, ht⟩
        · exact .inr (.inl ⟨other, t, u, hcomes.cons h, hu⟩)
        · exact .inr (.inr ⟨other, t, e, u, hcomes.cons h, hu⟩)
    · exact .inr (.inr ⟨clause, s, e, t, hfirst, h⟩)

/-! ## The clause that runs -/

/-- Evaluates the first condition and goes on with what it decides. -/
def tryClauses (env : Env) (node : Node) (first : IfClause) (more : List IfClause)
    (otherwise : Otherwise) : RunM (Option String) := do
  env.runClauses node (← env.evaluateCondition node first.condition)
    (.written first more otherwise)

/-- Evaluates a body, if there is one. -/
def evaluateBody (env : Env) : Option String → RunM (Option String)
  | none => return none
  | some body => env.evaluateScript body

section

variable {first : IfClause} {more : List IfClause} (otherwise : Otherwise)

theorem run_tryClauses_of_true (more : List IfClause)
    (h : (env.evaluateCondition node first.condition).Returns s true t) :
    (env.tryClauses node first more otherwise).run s = (env.evaluateScript first.body).run t := by
  rw [tryClauses, h.run_bind]
  cases more with
  | nil => cases otherwise <;> rfl
  | cons next more => rfl

theorem run_tryClauses_of_false {next : IfClause}
    (h : (env.evaluateCondition node first.condition).Returns s false t) :
    (env.tryClauses node first (next :: more) otherwise).run s =
      (env.tryClauses node next more otherwise).run t := by
  rw [tryClauses, h.run_bind]
  rfl

theorem run_tryClauses_last (h : (env.evaluateCondition node first.condition).Returns s false t) :
    (env.tryClauses node first [] otherwise).run s = (env.evaluateBody otherwise.body?).run t := by
  rw [tryClauses, h.run_bind]
  cases otherwise <;> rfl

/-- Where the conditions of all clauses are false, the other body is left. -/
theorem Rejects.run_tryClauses (h : env.Rejects node (first :: more) s t) :
    (env.tryClauses node first more otherwise).run s =
      (env.evaluateBody otherwise.body?).run t := by
  induction more generalizing first s with
  | nil =>
    obtain ⟨s', hfirst, rfl⟩ := h
    exact run_tryClauses_last otherwise hfirst
  | cons next more ih =>
    obtain ⟨s', hfirst, hmore⟩ := h
    rw [run_tryClauses_of_false otherwise hfirst]
    exact ih hmore

/-- Behind clauses whose conditions are false the search goes on as if the next were the first. -/
theorem Rejects.run_tryClauses_append {front back : List IfClause}
    (hclauses : first :: more = front ++ clause :: back) (hfront : env.Rejects node front s t) :
    (env.tryClauses node first more otherwise).run s =
      (env.tryClauses node clause back otherwise).run t := by
  induction front generalizing first more s with
  | nil =>
    cases hclauses
    cases hfront
    rfl
  | cons _ front ih =>
    obtain ⟨rfl, hmore⟩ := List.cons.inj hclauses
    obtain ⟨s', hfirst, hfront⟩ := hfront
    cases more with
    | nil => exact absurd hmore (by simp)
    | cons next more =>
      rw [run_tryClauses_of_false otherwise hfirst]
      exact ih hmore hfront

theorem ComesTo.exists_run_tryClauses (h : env.ComesTo node (first :: more) s clause t) :
    ∃ back, (env.tryClauses node first more otherwise).run s =
      (env.tryClauses node clause back otherwise).run t := by
  obtain ⟨front, back, hclauses, hfront⟩ := h
  exact ⟨back, hfront.run_tryClauses_append otherwise hclauses⟩

end

/-- Enters the result of a body into the trace as that of the command. -/
def conclude (body : RunM (Option String)) : RunM Outcome := do
  let result ← body
  return ⟨result, some (.chose result)⟩

theorem run_conclude_congr {x y : RunM (Option String)} (h : x.run s = y.run t) :
    (conclude x).run s = (conclude y).run t := by
  rw [conclude, conclude, run_bind, run_bind, h]

/-- The command is the search for a body. -/
theorem perform_if (env : Env) (node : Node) (first : IfClause) (more : List IfClause)
    (otherwise : Otherwise) :
    env.perform .ifThen node (ifOperands first more otherwise) =
      conclude (env.tryClauses node first more otherwise) := by
  rw [conclude, tryClauses, bind_assoc, ← Clauses.read_afterCondition]
  rfl

/-- The conditions of `if` are evaluated in order, up to the first that is true or fails. The body
of a clause whose condition is true is evaluated in the state behind that condition, and the other
body where all conditions are false, and its result is that of the command. A condition that fails
fails the command. One of the three always happens. -/
theorem if_selects_clause (env : Env) (node : Node) (first : IfClause) (more : List IfClause)
    (otherwise : Otherwise) (s : Run) :
    (∀ clause t u, env.ComesTo node (first :: more) s clause t →
      (env.evaluateCondition node clause.condition).Returns t true u →
      (env.perform .ifThen node (ifOperands first more otherwise)).run s =
        (conclude (env.evaluateScript clause.body)).run u) ∧
    (∀ t, env.Rejects node (first :: more) s t →
      (env.perform .ifThen node (ifOperands first more otherwise)).run s =
        (conclude (env.evaluateBody otherwise.body?)).run t) ∧
    (∀ clause t e u, env.ComesTo node (first :: more) s clause t →
      (env.evaluateCondition node clause.condition).Raises t e u →
      (env.perform .ifThen node (ifOperands first more otherwise)).Raises s e u) ∧
    ((∃ t, env.Rejects node (first :: more) s t) ∨
      (∃ clause t u, env.ComesTo node (first :: more) s clause t ∧
        (env.evaluateCondition node clause.condition).Returns t true u) ∨
      ∃ clause t e u, env.ComesTo node (first :: more) s clause t ∧
        (env.evaluateCondition node clause.condition).Raises t e u) := by
  rw [perform_if]
  refine ⟨?_, ?_, ?_, env.rejects_or_comesTo node (first :: more) s⟩
  · intro clause t u hcomes htrue
    obtain ⟨back, hrun⟩ := hcomes.exists_run_tryClauses otherwise
    exact run_conclude_congr (hrun.trans (run_tryClauses_of_true otherwise back htrue))
  · intro t hrejects
    exact run_conclude_congr (hrejects.run_tryClauses otherwise)
  · intro clause t e u hcomes hfails
    obtain ⟨back, hrun⟩ := hcomes.exists_run_tryClauses otherwise
    have hraises : (env.tryClauses node first more otherwise).Raises s e u :=
      hrun.trans (hfails.bind _)
    exact hraises.bind _

/-- A condition is the truth of its value. -/
theorem returns_evaluateCondition {text expression : String} {value : Value} {truth : Bool}
    (htext : (env.substitute env.readVariable text).Returns s expression t)
    (hvalue : Value.ofExpression expression = .ok value)
    (htruth : Value.readBool? value.text = some truth) :
    (env.evaluateCondition node text).Returns s truth t := by
  have hexpression : (env.evaluateExpression text).Returns s value.text t := by
    refine htext.bind ?_
    rw [hvalue]
    rfl
  refine hexpression.bind ?_
  rw [htruth]
  rfl

/-- The first condition is false and writes the variable that the second one and its body read. -/
theorem if_selects_clause_behind_write :
    let env := Setup.env {} 0 0
    let node : Node := ⟨.command, some "if", []⟩
    let first : IfClause := ⟨"[set i 0]", true, "set r none", by decide⟩
    let second : IfClause := ⟨"1$i", false, "set r $i", by decide⟩
    let otherwise := Otherwise.bare "set r none" (by decide) (by decide)
    let s := runWith [("i", "5")]
    ifOperands first [second] otherwise =
      ["[set i 0]", "then", "set r none", "elseif", "1$i", "set r $i", "set r none"] ∧
    ∃ t u, env.Rejects node [first] s t ∧
      (env.evaluateCondition node second.condition).Returns t true u ∧
      (env.perform .ifThen node (ifOperands first [second] otherwise)).run s =
        (conclude (env.evaluateScript second.body)).run u ∧
      ((conclude (env.evaluateScript second.body)).run u).2.scopes.get? env.scope (.scalar "r") =
        some "0" := by
  intro env node first second otherwise s
  have hzero : Value.ofExpression "0" = .ok (.int (.ofInt (0 : Nat))) :=
    (Value.readsAs_natural (n := 0) (by decide)).ofExpression
  have hten : Value.ofExpression "10" = .ok (.int (.ofInt (10 : Nat))) :=
    (Value.readsAs_natural (n := 10) (by decide)).ofExpression
  obtain ⟨t, ht⟩ : ∃ t, t = ((env.substitute env.readVariable first.condition).run s).2 :=
    ⟨_, rfl⟩
  obtain ⟨u, hu⟩ : ∃ u, u = ((env.substitute env.readVariable second.condition).run t).2 :=
    ⟨_, rfl⟩
  have hread : ((env.substitute env.readVariable first.condition).run s).1 = .ok "0" := by
    decide +kernel
  have hread' : ((env.substitute env.readVariable second.condition).run t).1 = .ok "10" := by
    rw [ht]
    decide +kernel
  have hfirst : (env.evaluateCondition node first.condition).Returns s false t :=
    returns_evaluateCondition (Prod.ext hread ht.symm) hzero (by decide)
  have hsecond : (env.evaluateCondition node second.condition).Returns t true u :=
    returns_evaluateCondition (Prod.ext hread' hu.symm) hten (by decide)
  refine ⟨rfl, t, u, ⟨t, hfirst, rfl⟩, hsecond, ?_, ?_⟩
  · exact (if_selects_clause env node first [second] otherwise s).1 second t u
      ⟨[first], [], rfl, t, hfirst, rfl⟩ hsecond
  · rw [hu, ht]
    decide +kernel

end Env

end Tickle
