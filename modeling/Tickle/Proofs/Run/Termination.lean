import Tickle.Proofs.Run.Procedures

/-! # Every run ends

Each call in the text of a procedure is smaller than the call of the procedure itself: it leaves
less room for nested scripts, or it is on the same level and of a lower rank, or it has fewer
iterations left or shorter names to read, or it walks over less. So the text of every call ends,
whatever the limits and the commands are, and nothing but the limits has to cut a run short. -/

namespace Tickle

mutual

/-- Length of the longest name that a fragment refers to. -/
def Node.longestName : Node → Nat
  | ⟨.name, text, _⟩ => (text.getD "").length
  | ⟨.list, _, children⟩ => Node.longestNameIn children
  | _ => 0

/-- Length of the longest name that fragments in a row refer to. -/
def Node.longestNameIn : List Node → Nat
  | [] => 0
  | node :: rest => max node.longestName (Node.longestNameIn rest)

end

namespace Call

/-- Levels of scripts that may still be entered. -/
def room (setup : Setup) {α : Type} : Call α → Nat
  | .script here .. => setup.room here.depth
  | .commands here .. | .command here .. | .operands here .. | .fragments here ..
  | .fragment here .. | .reference here .. | .substitution here .. | .nested here ..
  | .expression here .. | .condition here .. | .clauses here .. | .loop here ..
  | .builtin here .. | .invocation here .. => setup.room (here.depth + 1)

/-- Calls on the same level make calls of a lower rank or of their own. -/
def rank {α : Type} : Call α → Nat
  | .script .. => 0
  | .nested .. => 1
  | .fragments .. | .fragment .. | .reference .. | .substitution .. => 2
  | .expression .. => 3
  | .condition .. => 4
  | .operands .. | .clauses .. | .loop .. => 5
  | .builtin .. | .invocation .. => 6
  | .command .. => 7
  | .commands .. => 8

/-- Iterations that a loop may still begin, or how long names can be. The names in an index are
shorter than the name whose index it is. -/
def width (setup : Setup) {α : Type} : Call α → Nat
  | .loop here _ _ _ _ _ completed _ => (here.env setup).iterationsLeft completed
  | .fragments _ nodes => Node.longestNameIn nodes
  | .fragment _ node => node.longestName
  | .reference _ node => node.value.length
  | .substitution _ text => text.length + 1
  | _ => 0

/-- What is walked over: commands, operands, fragments or clauses. -/
noncomputable def size {α : Type} : Call α → Nat
  | .commands _ _ nodes | .operands _ nodes => nodes.length
  | .fragments _ nodes => sizeOf nodes
  | .fragment _ node => sizeOf node
  | .clauses _ _ _ rest => sizeOf rest
  | _ => 0

/-- Room, rank, width and size, in the order of their weight. -/
noncomputable def measure (setup : Setup) {α : Type} (c : Call α) : Nat × Nat × Nat × Nat :=
  (c.room setup, c.rank, c.width setup, c.size)

/-- The first call has a smaller measure. -/
def Smaller (setup : Setup) {α β : Type} (c : Call α) (d : Call β) : Prop :=
  Prod.Lex (· < ·) (Prod.Lex (· < ·) (Prod.Lex (· < ·) (· < ·))) (c.measure setup)
    (d.measure setup)

namespace Smaller

variable {setup : Setup} {α β : Type} {c : Call α} {d : Call β}

theorem of_room (h : c.room setup < d.room setup) : c.Smaller setup d := .left _ _ h

theorem of_rank (hroom : c.room setup = d.room setup) (h : c.rank < d.rank) :
    c.Smaller setup d := by
  unfold Smaller measure
  rw [hroom]
  exact .right _ (.left _ _ h)

theorem of_width (hroom : c.room setup = d.room setup) (hrank : c.rank = d.rank)
    (h : c.width setup < d.width setup) : c.Smaller setup d := by
  unfold Smaller measure
  rw [hroom, hrank]
  exact .right _ (.right _ (.left _ _ h))

theorem of_size (hroom : c.room setup = d.room setup) (hrank : c.rank = d.rank)
    (hwidth : c.width setup ≤ d.width setup) (h : c.size < d.size) : c.Smaller setup d := by
  rcases Nat.lt_or_eq_of_le hwidth with hlt | heq
  · exact of_width hroom hrank hlt
  · unfold Smaller measure
    rw [hroom, hrank, heq]
    exact .right _ (.right _ (.right _ h))

end Smaller

/-- There is no endless sequence of smaller and smaller calls. -/
theorem wellFounded_smaller (setup : Setup) :
    WellFounded fun c d : (α : Type) × Call α => c.2.Smaller setup d.2 :=
  InvImage.wf (fun c : (α : Type) × Call α => c.2.measure setup)
    (Prod.lex Nat.lt_wfRel (Prod.lex Nat.lt_wfRel (Prod.lex Nat.lt_wfRel Nat.lt_wfRel))).wf

end Call

/-- Every call in the text is one of those that `P` holds of, whatever was answered before it. -/
def Procedure.AllCalls (P : {β : Type} → Call β → Prop) {α : Type} : Procedure α → Prop
  | .act _ => True
  | .seq p f => p.AllCalls P ∧ ∀ a, (f a).AllCalls P
  | .call c => P c
  | .shielded p => p.AllCalls P
  | .inFreshScope _ _ _ p => ∀ scope, (p scope).AllCalls P

theorem Procedure.AllCalls.imp {P Q : {β : Type} → Call β → Prop} {α : Type} {p : Procedure α}
    (h : p.AllCalls P) (hPQ : ∀ {β : Type} (c : Call β), P c → Q c) : p.AllCalls Q := by
  induction p with
  | act x => trivial
  | seq p f ihp ihf => exact ⟨ihp h.1, fun a => ihf a (h.2 a)⟩
  | call c => exact hPQ c h
  | shielded p ih => exact ih h
  | inFreshScope parent scalars sink p ih => exact fun scope => ih scope (h scope)

/-- A text ends if the calls in it do. -/
theorem Procedure.ends_of_allCalls {setup : Setup} {α : Type} {p : Procedure α}
    (h : p.AllCalls fun c => ∀ s, ∃ r t, Ends setup (.call c) s r t) (s : Run) :
    ∃ r t, Ends setup p s r t := by
  induction p generalizing s with
  | act x => exact ⟨_, _, .act x s⟩
  | seq p f ihp ihf =>
    obtain ⟨r, s', hp⟩ := ihp h.1 s
    cases r with
    | error e => exact ⟨_, _, .stop f hp⟩
    | ok a =>
      obtain ⟨r, t, hf⟩ := ihf a (h.2 a) s'
      exact ⟨r, t, .next hp hf⟩
  | call c => exact h s
  | shielded p ih =>
    obtain ⟨r, t, hp⟩ := ih h { s with trace := #[] }
    exact ⟨_, _, .shielded hp⟩
  | inFreshScope parent scalars sink p ih =>
    obtain ⟨r, t, hp⟩ := ih s.scopes.next (h s.scopes.next)
      { RunM.entered parent scalars sink s with trace := #[] }
    exact ⟨_, _, .inFreshScope hp⟩

/-! ## Calls make smaller calls -/

theorem Node.longestNameIn_le {nodes : List Node} {bound : Nat}
    (h : ∀ node ∈ nodes, node.longestName ≤ bound) : Node.longestNameIn nodes ≤ bound := by
  induction nodes with
  | nil => exact Nat.zero_le bound
  | cons node rest ih =>
    obtain ⟨hnode, hrest⟩ := List.forall_mem_cons.1 h
    exact Nat.max_le.2 ⟨hnode, ih hrest⟩

/-- The names in a text are no longer than the text. -/
theorem Tree.longestNameIn_le_of_parseSubstitution {text : String} {tree : Node}
    (h : parseSubstitution text = .ok tree) : Node.longestNameIn tree.children ≤ text.length := by
  refine Node.longestNameIn_le fun node hnode => ?_
  obtain ⟨hlist, hname⟩ := of_parseSubstitution h hnode
  obtain ⟨kind, value, children⟩ := node
  cases kind
  case name =>
    have hle := (hname rfl).length_le
    rwa [String.length_toList, String.length_toList] at hle
  case list => exact absurd rfl hlist
  all_goals exact Nat.zero_le _

namespace Call

variable {setup : Setup} (here : Level)

/-- A call of a procedure is larger than each call in the text of the procedure. -/
abbrev Descends (setup : Setup) {α : Type} (c : Call α) : Prop :=
  (c.body setup).AllCalls fun d => d.Smaller setup c

theorem descends_script (name text : String) : (script here name text).Descends setup := by
  unfold Descends
  by_cases h : setup.limits.nesting < here.depth
  · simp only [body, if_pos h]
    trivial
  · simp only [body, if_neg h]
    cases Tree.parseScript name text with
    | error e => trivial
    | ok program =>
      refine ⟨trivial, fun _ => .of_room ?_⟩
      simp only [room, Setup.room]
      omega

theorem descends_command (node : Node) : (command here node).Descends setup := by
  unfold Descends
  refine ⟨⟨trivial, fun _ => ?_⟩, fun _ => ⟨trivial, fun _ => trivial⟩⟩
  dsimp only
  cases setup.commands[node.value]? with
  | none => trivial
  | some callee =>
    refine ⟨.of_rank rfl (by simp [rank]), fun values => ?_⟩
    dsimp only
    split
    · trivial
    · refine ⟨?_, fun _ => trivial⟩
      cases callee with
      | builtin function => exact .of_rank rfl (by simp [rank])
      | script callee => exact ⟨.of_rank rfl (by simp [rank]), fun _ => trivial⟩

theorem descends_fragment (node : Node) : (fragment here node).Descends setup := by
  unfold Descends
  obtain ⟨kind, text, children⟩ := node
  cases kind
  case name =>
    refine .of_size rfl rfl (Nat.le_refl _) ?_
    simp only [size, Node.mk.sizeOf_spec]
    omega
  case program => exact ⟨.of_rank rfl (by simp [rank]), fun _ => trivial⟩
  case list =>
    refine .of_size rfl rfl (Nat.le_refl _) ?_
    simp only [size, Node.mk.sizeOf_spec]
    omega
  all_goals trivial

theorem descends_reference (node : Node) : (reference here node).Descends setup := by
  unfold Descends
  simp only [body]
  cases h : VarName.read node.value with
  | scalar name => trivial
  | element array index =>
    dsimp only
    split
    · exact ⟨.of_width rfl rfl (VarName.length_index_lt h), fun _ => trivial⟩
    · exact ⟨trivial, fun _ => trivial⟩

theorem descends_substitution (text : String) : (substitution here text).Descends setup := by
  unfold Descends
  simp only [body]
  cases h : Tree.parseSubstitution text with
  | error e => trivial
  | ok tree =>
    have hle := Tree.longestNameIn_le_of_parseSubstitution h
    exact .of_width rfl rfl (Nat.lt_succ_of_le hle)

theorem descends_clauses (node : Node) (holds : Bool) (rest : Clauses) :
    (clauses here node holds rest).Descends setup := by
  unfold Descends
  cases rest with
  | missing => trivial
  | last text =>
    cases holds with
    | false => trivial
    | true => exact .of_rank rfl (by simp [rank])
  | orElse text otherwise => exact .of_rank rfl (by simp [rank])
  | elseIf text next rest =>
    cases holds with
    | false =>
      refine ⟨.of_rank rfl (by simp [rank]), fun holds => ?_⟩
      refine .of_size rfl rfl (Nat.le_refl _) ?_
      simp only [size, Clauses.elseIf.sizeOf_spec]
      omega
    | true => exact .of_rank rfl (by simp [rank])

theorem descends_loop (node : Node) (kind : Loop) (test text : String) (step : Option String)
    (completed : Nat) (result : Option String) :
    (loop here node kind test text step completed result).Descends setup := by
  unfold Descends
  refine ⟨.of_rank rfl (by simp [rank]), fun holds => ?_⟩
  cases holds with
  | false => trivial
  | true =>
    simp only [if_true]
    split
    · trivial
    · rename_i hi
      have hleft : (here.env setup).iterationsLeft (completed + 1) <
          (here.env setup).iterationsLeft completed := by
        have hsetup : (here.env setup).setup = setup := rfl
        rw [Env.iterationsLeft, Env.iterationsLeft, hsetup]
        omega
      refine ⟨.of_rank rfl (by simp [rank]), fun value => ?_⟩
      cases step with
      | none => exact .of_width rfl rfl hleft
      | some step => exact ⟨.of_rank rfl (by simp [rank]), fun _ => .of_width rfl rfl hleft⟩

theorem descends_builtin (function : Builtin) (node : Node) (values : List String) :
    (builtin here function node values).Descends setup := by
  unfold Descends
  cases function
  case expr => exact ⟨.of_rank rfl (by simp [rank]), fun _ => trivial⟩
  case ifThen =>
    cases values with
    | nil => trivial
    | cons test values =>
      refine ⟨.of_rank rfl (by simp [rank]), fun _ => ?_⟩
      exact ⟨.of_rank rfl (by simp [rank]), fun _ => trivial⟩
  case forLoop =>
    rcases values with _ | ⟨init, _ | ⟨test, _ | ⟨step, _ | ⟨text, values⟩⟩⟩⟩
    case cons.cons.cons.cons =>
      refine ⟨.of_rank rfl (by simp [rank]), fun _ => ?_⟩
      exact ⟨.of_rank rfl (by simp [rank]), fun _ => trivial⟩
    all_goals trivial
  case whileLoop =>
    rcases values with _ | ⟨test, _ | ⟨text, values⟩⟩
    case cons.cons => exact ⟨.of_rank rfl (by simp [rank]), fun _ => trivial⟩
    all_goals trivial
  all_goals trivial

theorem descends {α : Type} (c : Call α) : c.Descends setup := by
  cases c with
  | script here name text => exact descends_script here name text
  | commands here result nodes =>
    cases nodes with
    | nil => trivial
    | cons node rest =>
      refine ⟨.of_rank rfl (by simp [rank]), fun value => ?_⟩
      exact .of_size rfl rfl (Nat.le_refl _) (Nat.lt_succ_self _)
  | command here node => exact descends_command here node
  | operands here nodes =>
    cases nodes with
    | nil => trivial
    | cons node rest =>
      refine ⟨.of_rank rfl (by simp [rank]), fun value => ⟨?_, fun _ => trivial⟩⟩
      exact .of_size rfl rfl (Nat.le_refl _) (Nat.lt_succ_self _)
  | fragments here nodes =>
    cases nodes with
    | nil => trivial
    | cons node rest =>
      refine ⟨?_, fun first => ⟨?_, fun _ => trivial⟩⟩
      · refine .of_size rfl rfl (Nat.le_max_left _ _) ?_
        simp only [size, List.cons.sizeOf_spec]
        omega
      · refine .of_size rfl rfl (Nat.le_max_right _ _) ?_
        simp only [size, List.cons.sizeOf_spec]
        omega
  | fragment here node => exact descends_fragment here node
  | reference here node => exact descends_reference here node
  | substitution here text => exact descends_substitution here text
  | nested here text => exact .of_rank rfl (by simp [rank])
  | expression here text => exact ⟨.of_rank rfl (by simp [rank]), fun _ => trivial⟩
  | condition here node text =>
    refine ⟨.of_rank rfl (by simp [rank]), fun value => ?_⟩
    dsimp only
    split <;> trivial
  | clauses here node holds rest => exact descends_clauses here node holds rest
  | loop here node kind test text step completed result =>
    exact descends_loop here node kind test text step completed result
  | builtin here function node values => exact descends_builtin here function node values
  | invocation here callee values => exact fun scope => .of_rank rfl (by simp [rank])

/-- Every call ends. -/
theorem ends {α : Type} (c : Call α) (s : Run) : ∃ r t, Ends setup (.call c) s r t := by
  have hall : ∀ c : (α : Type) × Call α, ∀ s, ∃ r t, Ends setup (.call c.2) s r t := by
    intro c
    induction c using (wellFounded_smaller setup).induction with
    | _ c ih =>
      intro s
      have hsmaller : c.2.Descends setup := c.2.descends
      have hcalls := hsmaller.imp fun d hd => ih ⟨_, d⟩ hd
      obtain ⟨r, t, hbody⟩ := Procedure.ends_of_allCalls hcalls s
      exact ⟨r, t, .call hbody⟩
  exact hall ⟨α, c⟩ s

end Call

/-- A run of a script ends, with the result or error that the interpreter computes and in no other
way; for in the text of each procedure that takes part, every call has a smaller measure than the
call of the procedure. -/
theorem Setup.run_terminates (setup : Setup) (depth : Int) (scope : ScopeId) (name text : String)
    (start : Run) :
    (∃ r t, Ends setup (.call (.script ⟨depth, scope⟩ name text)) start r t) ∧
      (∀ r t, Ends setup (.call (.script ⟨depth, scope⟩ name text)) start r t ↔
        (setup.run depth scope name text).run start = (r, t)) ∧
      ∀ {α : Type} (c : Call α), (c.body setup).AllCalls fun d => d.Smaller setup c := by
  have hends : ∃ r t, Ends setup (.call (.script ⟨depth, scope⟩ name text)) start r t :=
    Call.ends _ start
  refine ⟨hends, fun r t => ⟨fun h => h.run_eq, fun h => ?_⟩, fun c => c.descends⟩
  obtain ⟨r', t', h'⟩ := hends
  cases h'.run_eq.symm.trans h
  exact h'

end Tickle
