import Tickle.Proofs.Run.Procedures
import Tickle.Proofs.Scope.Writes
import Tickle.Proofs.Tree.References

/-! # Elements with a reference as their index

Setting `a($i)` puts the text of the element together and takes it apart at its last opening
parenthesis; reading `$a($i)` takes the reference apart as it is written and then makes the
substitution in its index. The two name the same element unless the value of the index holds an
opening parenthesis. -/

namespace Tickle

namespace VarName

theorem reverse_element (array index : String) : (array ++ "(" ++ index ++ ")").toList.reverse =
    ')' :: (index.toList.reverse ++ '(' :: array.toList.reverse) := by
  simp [String.toList_append]

/-- What is written as an element is one, whatever its parts hold. -/
theorem exists_read_element (array index : String) :
    ∃ array' index', read (array ++ "(" ++ index ++ ")") = .element array' index' := by
  rw [read, reverse_element]
  cases hd : (index.toList.reverse ++ '(' :: array.toList.reverse).dropWhile (· ≠ '(') with
  | nil =>
    have hall := List.dropWhile_eq_nil_iff.1 hd '(' (by simp)
    simp at hall
  | cons c rest =>
    simp only [hd]
    exact ⟨_, _, rfl⟩

/-- An element is taken apart where it was put together, if its index holds no parenthesis. -/
theorem read_element {array index : String} (h : '(' ∉ index.toList) :
    read (array ++ "(" ++ index ++ ")") = .element array index := by
  have hne : ∀ c ∈ index.toList.reverse, decide (c ≠ '(') = true := by
    intro c hc
    exact decide_eq_true fun he => h (he ▸ List.mem_reverse.1 hc)
  rw [read, reverse_element]
  simp only [List.takeWhile_append_of_pos hne, List.dropWhile_append_of_pos hne]
  simp

theorem IsPlain.read {name : VarName} (h : name.IsPlain) : VarName.read name.text = name := by
  cases name with
  | scalar name =>
    exact read_of_not_mem (Text.not_mem_of_isNameChar (IsVarText.chars h) (by decide))
  | element array index => exact read_element (Text.not_mem_of_isNameChar h.2 (by decide))

/-- An element whose index holds an opening parenthesis is taken apart elsewhere. -/
theorem read_ne_element {array index : String} (h : '(' ∈ index.toList) (name : String) :
    read name ≠ .element array index :=
  fun hread => not_mem_index_of_read hread h

end VarName

namespace Env

open RunM

variable {env : Env} {x : String}

theorem returns_readScalar {node : Node} {s : Run}
    (hx : s.scopes.scalar? env.scope node.value = some x) :
    (env.readScalar node).Returns s x s := by
  refine Returns.bind (run_getScopes _ s) ?_
  rw [hx]
  rfl

/-- A reference without substitutions in its index is the value of the variable. -/
theorem returns_readVariable {name : VarName} {s : Run} (hname : name.IsPlain)
    (hx : s.scopes.get? env.scope name = some x) :
    (env.readVariable ⟨.name, some name.text, []⟩).Returns s x s := by
  have hread : VarName.read (Node.value ⟨.name, some name.text, []⟩) = name := hname.read
  rw [readVariable, hread]
  cases name with
  | scalar name => exact returns_readScalar hx
  | element array index =>
    have hplain : hasSubstitution index = false := by
      rw [hasSubstitution, List.any_eq_false]
      intro c hc
      have hdollar := Text.ne_of_isNameChar (d := '$') (hname.2 c hc) rfl
      have hbracket := Text.ne_of_isNameChar (d := '[') (hname.2 c hc) rfl
      simp [hdollar, hbracket]
    simp only [hplain, Bool.false_eq_true, if_false]
    refine Returns.bind (run_pure index s) (Returns.bind (run_getScopes _ s) ?_)
    rw [show s.scopes.element? env.scope array index = some x from hx]
    rfl

theorem returns_readFragments_cons {readName : Node → RunM String} {node : Node}
    {rest : List Node} {first others : String} {s s' t : Run}
    (hfirst : (env.readFragment readName node).Returns s first s')
    (hothers : (env.readFragments readName rest).Returns s' others t) :
    (env.readFragments readName (node :: rest)).Returns s (first ++ others) t := by
  rw [readFragments]
  exact hfirst.bind (hothers.bind (returns_pure _ t))

theorem returns_readFragments_single {readName : Node → RunM String} {node : Node} {value : String}
    {s t : Run} (h : (env.readFragment readName node).Returns s value t) :
    (env.readFragments readName [node]).Returns s value t := by
  have hsingle := returns_readFragments_cons h
    (show (env.readFragments readName []).Returns t "" t from rfl)
  rwa [String.append_empty] at hsingle

/-- The written name of an element is put together from its parts. -/
theorem returns_elementOperand {array : String} {index : VarName} {s : Run}
    (hindex : index.IsPlain) (hx : s.scopes.get? env.scope index = some x) :
    (env.readOperand (Tree.elementOperand array index)).Returns s (array ++ "(" ++ x ++ ")") s := by
  have hword (text : String) :
      (env.readFragment env.readVariable ⟨.word, some text, []⟩).Returns s text s := rfl
  have hindex : (env.readFragment env.readVariable ⟨.name, some index.text, []⟩).Returns s x s :=
    returns_readVariable hindex hx
  have hparts := returns_readFragments_cons (hword (array ++ "("))
    (returns_readFragments_cons hindex (returns_readFragments_single (hword ")")))
  rwa [← String.append_assoc] at hparts

/-! ## The write -/

theorem returns_readOperands_cons {node : Node} {rest : List Node} {value : String}
    {values : List String} {s s' t : Run} (h : (env.readOperand node).Returns s value s')
    (hrest : (env.readOperands rest).Returns s' values t) :
    (env.readOperands (node :: rest)).Returns s (value :: values) t := by
  rw [readOperands]
  exact h.bind (hrest.bind (returns_pure _ t))

/-- What is left of a `set` with a name and a value that succeeded. -/
theorem of_executeCommand_set (hset : env.setup.commands["set"]? = some (.builtin .set))
    {target value : Node} {name v : String} {s t u : Run} {r : Option String}
    (hname : (env.readOperand target).Returns { s with count := s.count + 1 } name
      { s with count := s.count + 1 })
    (hv : (env.readOperand value).Returns { s with count := s.count + 1 } v u)
    (hrun : (env.executeCommand ⟨.command, some "set", [target, value]⟩).Returns s r t) :
    t.scopes = u.scopes.set env.scope (.read name) v := by
  have hnone : (env.readOperands []).Returns u [] u := returns_pure [] u
  have hoperands := returns_readOperands_cons hname (returns_readOperands_cons hv hnone)
  rw [executeCommand_eq hset] at hrun
  obtain ⟨_, s', hcount, hrun⟩ := hrun.of_bind
  have hs' : s' = { s with count := s.count + 1 } :=
    (congrArg Prod.snd ((run_count env _ s).symm.trans hcount)).symm
  subst hs'
  rw [Returns, hoperands.run_bind] at hrun
  cases hrun
  rfl

/-- What a `set` with a name and a value leaves, if it may be executed. -/
theorem returns_executeCommand_set (hset : env.setup.commands["set"]? = some (.builtin .set))
    {target value : Node} {name v : String} {s s' u : Run}
    (hcount : s.count + 1 ≤ env.setup.limits.commands)
    (hname : (env.readOperand target).Returns { s with count := s.count + 1 } name s')
    (hv : (env.readOperand value).Returns s' v u) :
    ∃ t, (env.executeCommand ⟨.command, some "set", [target, value]⟩).Returns s (some v) t ∧
      t.scopes = u.scopes.set env.scope (.read name) v := by
  have hnone : (env.readOperands []).Returns u [] u := returns_pure [] u
  have hoperands := returns_readOperands_cons hname (returns_readOperands_cons hv hnone)
  rw [executeCommand_eq hset]
  exact ⟨_, (returns_count hcount).bind (hoperands.bind rfl), rfl⟩

/-! ## The reference -/

section Reference

variable {array i : String} {t : Run} (hi : IsVarText i)
  (hx : t.scopes.scalar? env.scope i = some x)
include hi hx

theorem returns_substitute_reference :
    (env.substitute env.readScalar ("$" ++ i)).Returns t x t := by
  have hname : (env.readFragment env.readScalar ⟨.name, some i, []⟩).Returns t x t :=
    returns_readScalar hx
  have hparse : (RunM.ofExcept (Tree.parseSubstitution ("$" ++ i))).Returns t
      ⟨.list, none, [⟨.name, some i, []⟩]⟩ t := by
    rw [Tree.parseSubstitution_reference hi]
    rfl
  exact hparse.bind (returns_readFragments_single hname)

/-- The substitution in the index comes first; then the element is looked up. -/
theorem run_readVariable_element :
    let node : Node := ⟨.name, some (array ++ "($" ++ i ++ ")"), []⟩
    (env.readVariable node).run t =
      (valueAt node (t.scopes.element? env.scope array x)).run t := by
  intro node
  have htext : array ++ "($" ++ i ++ ")" = array ++ "(" ++ ("$" ++ i) ++ ")" := by
    simp [← String.toList_inj, String.toList_append]
  have hopen : '(' ∉ ("$" ++ i).toList := by
    simpa [String.toList_append] using Text.not_mem_of_isNameChar hi.chars (d := '(') (by decide)
  have hread : VarName.read node.value = .element array ("$" ++ i) := by
    show VarName.read (array ++ "($" ++ i ++ ")") = _
    rw [htext, VarName.read_element hopen]
  have hsubst : hasSubstitution ("$" ++ i) = true := by
    simp [hasSubstitution, String.toList_append]
  rw [readVariable, hread]
  simp only [hsubst, if_true]
  rw [(returns_substitute_reference hi hx).run_bind,
    Returns.run_bind (run_getScopes (·.element? env.scope array x) t)]

theorem returns_referenceOperand {v : String}
    (hv : t.scopes.element? env.scope array x = some v) :
    (env.readOperand (Tree.referenceOperand (array ++ "($" ++ i ++ ")"))).Returns t v t := by
  refine returns_readFragments_single ?_
  show (env.readVariable _).run t = _
  rw [run_readVariable_element hi hx, hv]
  rfl

theorem raises_referenceOperand (hv : t.scopes.element? env.scope array x = none) :
    (env.readOperand (Tree.referenceOperand (array ++ "($" ++ i ++ ")"))).Raises t
      (.execution (.noSuchVariable (array ++ "($" ++ i ++ ")"))
        (some ⟨.name, some (array ++ "($" ++ i ++ ")")⟩)) t := by
  have hraises : (env.readFragment env.readVariable
      ⟨.name, some (array ++ "($" ++ i ++ ")"), []⟩).Raises t
      (.execution (.noSuchVariable (array ++ "($" ++ i ++ ")"))
        (some ⟨.name, some (array ++ "($" ++ i ++ ")")⟩)) t := by
    show (env.readVariable _).run t = _
    rw [run_readVariable_element hi hx, hv]
    rfl
  rw [readOperand, Tree.referenceOperand, readFragments]
  exact hraises.bind _

end Reference

/-! ## Write and reference -/

/-- After `set a($i) v`, or `set a($b(k)) v`, the element that the value `x` of the index names is
`v`. The reference `$a($i)` reads it, unless `x` holds an opening parenthesis: the last one in
`a(x)` is where `set` takes the name apart, so then another array was written. -/
theorem element_read_after_set (hset : env.setup.commands["set"]? = some (.builtin .set))
    {name a word v : String} {index : VarName} {target value : Node} {r : Option String}
    {s t u : Run} (ha : IsVarText a) (hindex : index.IsPlain)
    (hparse : Tree.parseScript name ("set " ++ a ++ "($" ++ index.text ++ ") " ++ word) =
      .ok ⟨.program, some name, [⟨.command, some "set", [target, value]⟩]⟩)
    (hx : s.scopes.get? env.scope index = some x)
    (hv : (env.readOperand value).Returns { s with count := s.count + 1 } v u)
    (hu : u.scopes = s.scopes)
    (hrun : (env.executeCommand ⟨.command, some "set", [target, value]⟩).Returns s r t) :
    t.scopes.get? env.scope (.read (a ++ "(" ++ x ++ ")")) = some v ∧
      ('(' ∉ x.toList → t.scopes.get? env.scope (.element a x) = some v) ∧
      ∀ i, index = .scalar i → ∃ operand,
        Tree.parseScript name ("puts $" ++ a ++ "($" ++ i ++ ")") =
          .ok ⟨.program, some name, [⟨.command, some "puts", [operand]⟩]⟩ ∧
        ('(' ∉ x.toList → (env.readOperand operand).Returns t v t) ∧
        ('(' ∈ x.toList → s.scopes.get? env.scope (.element a x) = none →
          ∃ e, (env.readOperand operand).Raises t e t) := by
  obtain ⟨scope, hscope⟩ := Store.exists_of_get? hx
  have htarget : target = Tree.elementOperand a index := by
    rw [show "set " = "set" ++ " " from rfl] at hparse
    exact Tree.elementOperand_of_parseScript (isVarText_of_all (by decide)) ha hindex hparse
  subst htarget
  have hscopes : t.scopes = s.scopes.set env.scope (.read (a ++ "(" ++ x ++ ")")) v := by
    rw [← hu]
    exact of_executeCommand_set hset (returns_elementOperand hindex hx) hv hrun
  have hwritten : t.scopes.get? env.scope (.read (a ++ "(" ++ x ++ ")")) = some v := by
    rw [hscopes]
    exact Store.get?_set_self hscope _ v
  have helement (h : '(' ∉ x.toList) : t.scopes.get? env.scope (.element a x) = some v := by
    rwa [VarName.read_element h] at hwritten
  refine ⟨hwritten, helement, ?_⟩
  rintro i rfl
  obtain ⟨a', x', hread⟩ := VarName.exists_read_element a x
  rw [hread] at hscopes
  have hi : t.scopes.scalar? env.scope i = some x := by
    rw [hscopes, Store.scalar?_set_element hscope]
    exact hx
  rw [show "puts $" = "puts" ++ " $" from rfl]
  refine ⟨_, Tree.parseScript_reference name (isVarText_of_all (by decide)) ha hindex, ?_, ?_⟩
  · exact fun h => returns_referenceOperand hindex hi (helement h)
  · intro h hnone
    refine ⟨_, raises_referenceOperand hindex hi ?_⟩
    have hne : VarName.element a' x' ≠ .element a x :=
      hread ▸ VarName.read_ne_element h (a ++ "(" ++ x ++ ")")
    rw [hscopes]
    exact Store.element?_set_of_none hscope hne v hnone

/-- A run in which some variables of the first scope are set. -/
def runWith (values : List (String × String)) : Run :=
  { scopes := (Store.create {} none).2.setAll 0 values }

/-- An index with a value of one letter. -/
theorem element_read_after_set_letter :
    let env := Setup.env {} 0 0
    let s := runWith [("i", "x")]
    let command : Node := ⟨.command, some "set",
      [Tree.elementOperand "a" (.scalar "i"), ⟨.operand, none, [⟨.word, some "v", []⟩]⟩]⟩
    ∃ r t operand, (env.executeCommand command).Returns s r t ∧
      Tree.parseScript "main" ("puts $" ++ "a" ++ "($" ++ "i" ++ ")") =
        .ok ⟨.program, some "main", [⟨.command, some "puts", [operand]⟩]⟩ ∧
      (env.readOperand operand).Returns t "v" t := by
  intro env s command
  have hparse : Tree.parseScript "main"
      ("set " ++ "a" ++ "($" ++ (VarName.scalar "i").text ++ ") " ++ "v") =
        .ok ⟨.program, some "main", [command]⟩ := by decide +kernel
  have hx : s.scopes.get? env.scope (.scalar "i") = some "x" := by decide +kernel
  have hv : (env.readOperand ⟨.operand, none, [⟨.word, some "v", []⟩]⟩).Returns
      { s with count := s.count + 1 } "v" { s with count := s.count + 1 } := rfl
  have hset : env.setup.commands["set"]? = some (.builtin .set) := by decide +kernel
  have hok : ((env.executeCommand command).run s).1 = .ok (some "v") := by decide +kernel
  have hrun : (env.executeCommand command).Returns s (some "v")
      ((env.executeCommand command).run s).2 := Prod.ext hok rfl
  have ha : IsVarText "a" := isVarText_of_all (by decide)
  have hi : (VarName.scalar "i").IsPlain := isVarText_of_all (by decide)
  obtain ⟨-, -, hreads⟩ := element_read_after_set hset ha hi hparse hx hv rfl hrun
  obtain ⟨operand, hoperand, hagrees, -⟩ := hreads "i" rfl
  exact ⟨_, _, operand, hrun, hoperand, hagrees (by decide)⟩

/-- The value of the index holds a parenthesis, or the index has an index of its own. -/
theorem element_not_read_after_set :
    let run (script : String) := (Setup.run {} 0 0 "main" script).run
    let s := runWith [("i", "p(q"), ("b(k)", "x")]
    ((run "set a($i) v" s).1.toOption = some (some "v") ∧
      (run "puts $a($i)" (run "set a($i) v" s).2).1.toOption = none) ∧
    ((run "set a($b(k)) v" s).1.toOption = some (some "v") ∧
      (run "puts $a($b(k))" (run "set a($b(k)) v" s).2).1.toOption = none) := by
  decide +kernel

end Env

end Tickle
