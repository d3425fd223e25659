import Tickle.Proofs.Run.ElementIndex
import Tickle.Proofs.Run.ScriptsInTurn
import Tickle.Proofs.Tree.BracketedScripts

/-! # Values between braces

The reader of a braced word takes a backslash together with the character behind it and counts the
braces among the units that are left. A value can be written between braces as it is exactly if the
reader drops nothing of it and the brace behind it is the one that closes the word. -/

namespace Tickle

open Tickle.Text Tickle.Reader

/-! ## Units -/

/-- A text in units: a backslash with the character behind it, or a character by itself. -/
def units : List Char → List (List Char)
  | [] => []
  | '\\' :: c :: rest => ['\\', c] :: units rest
  | c :: rest => [c] :: units rest

theorem units_of_ne {c : Char} (hc : c ≠ '\\') (rest : List Char) :
    units (c :: rest) = [c] :: units rest := by
  rw [units]
  exact fun _ _ heq => absurd heq hc

/-- How many braces are open behind some units, in front of which `start` are. -/
def braceDepth (start : Int) (us : List (List Char)) : Int :=
  start + us.count ['\x7b'] - us.count ['\x7d']

theorem braceDepth_nil (start : Int) : braceDepth start [] = start := by
  simp [braceDepth]

theorem braceDepth_cons (start : Int) (u : List Char) (us : List (List Char)) :
    braceDepth start (u :: us) = braceDepth (braceDepth start [u]) us := by
  simp only [braceDepth, List.count_cons, List.count_nil]
  omega

/-- Units that can stand between braces as they are, where `start` braces are open: none is a
continuation or a lone backslash, none closes the last brace, and behind them one is open. -/
structure Verbatim (start : Int) (us : List (List Char)) : Prop where
  kept : ∀ u ∈ us, atContinuation u = false ∧ u ≠ ['\\']
  within : ∀ front ∈ us.inits, braceDepth start front ≠ 0
  closed : braceDepth start us = 1

theorem verbatim_iff {start : Int} {us : List (List Char)} :
    Verbatim start us ↔ (∀ u ∈ us, atContinuation u = false ∧ u ≠ ['\\']) ∧
      (∀ front ∈ us.inits, braceDepth start front ≠ 0) ∧ braceDepth start us = 1 :=
  ⟨fun h => ⟨h.kept, h.within, h.closed⟩, fun ⟨kept, within, closed⟩ => ⟨kept, within, closed⟩⟩

instance (start : Int) (us : List (List Char)) : Decidable (Verbatim start us) :=
  decidable_of_iff' _ verbatim_iff

theorem verbatim_nil_iff {start : Int} : Verbatim start [] ↔ start = 1 := by
  rw [verbatim_iff]
  simp only [List.inits, List.forall_mem_singleton, braceDepth_nil]
  constructor
  · exact fun ⟨_, _, hclosed⟩ => hclosed
  · rintro rfl
    exact ⟨nofun, by decide, rfl⟩

theorem verbatim_cons_iff {start : Int} {u : List Char} {us : List (List Char)} :
    Verbatim start (u :: us) ↔ (atContinuation u = false ∧ u ≠ ['\\']) ∧ start ≠ 0 ∧
      Verbatim (braceDepth start [u]) us := by
  have hfronts : (∀ front ∈ (u :: us).inits, braceDepth start front ≠ 0) ↔
      start ≠ 0 ∧ ∀ front ∈ us.inits, braceDepth (braceDepth start [u]) front ≠ 0 := by
    simp only [List.inits_cons, List.forall_mem_cons, List.forall_mem_map, braceDepth_nil,
      ← braceDepth_cons]
  rw [verbatim_iff, verbatim_iff, hfronts, braceDepth_cons start u us, List.forall_mem_cons]
  tauto

/-- One brace at least is open where units can stand. -/
theorem not_verbatim_zero (us : List (List Char)) : ¬ Verbatim 0 us := by
  intro h
  exact h.within [] (by cases us <;> simp) (braceDepth_nil 0)

/-! ## The reader -/

namespace Reader

theorem length_readBraced_add_le (eliding : Bool) (opened : Nat) (cs : List Char) :
    (readBraced eliding opened cs).1.length + (readBraced eliding opened cs).2.length ≤
      cs.length := by
  fun_induction readBraced eliding opened cs with
  | case1 => exact Nat.le_refl 0
  | case6 => exact Nat.le_of_eq (Nat.zero_add _)
  | case2 | case3 | case4 | case5 | case7 | case8 =>
    simp only [keep_fst, keep_snd, List.length_cons]
    omega

theorem keep_eq_iff {c : Char} {read : List Char × List Char} {cs rest : List Char} :
    keep c read = (c :: cs, rest) ↔ read = (cs, rest) := by
  simp [keep, Prod.ext_iff]

/-- A character that does not end the word is kept, and the count of open braces follows it. -/
theorem exists_readBraced_cons {c : Char} {opened : Nat} (hescape : c ≠ '\\')
    (hopened : c = '\x7d' → opened ≠ 0) :
    ∃ opened' : Nat, braceDepth (opened + 1) [[c]] = opened' + 1 ∧
      ∀ rest, readBraced false opened (c :: rest) = keep c (readBraced false opened' rest) := by
  by_cases hopen : c = '\x7b'
  · subst hopen
    exact ⟨opened + 1, by simp [braceDepth], fun rest => by simp [readBraced]⟩
  by_cases hclose : c = '\x7d'
  · subst hclose
    obtain ⟨n, rfl⟩ := Nat.exists_eq_succ_of_ne_zero (hopened rfl)
    exact ⟨n, by simp [braceDepth], fun rest => by simp [readBraced]⟩
  · exact ⟨opened, by simp [braceDepth, hopen, hclose],
      fun rest => by simp [readBraced, hescape, hopen, hclose]⟩

/-- A text is read up to the brace behind it, and nothing of it is dropped. -/
theorem readBraced_eq_iff (opened : Nat) (cs : List Char) :
    readBraced false opened (cs ++ ['\x7d']) = (cs, ['\x7d']) ↔
      Verbatim (opened + 1) (units cs) := by
  have hopened (n : Nat) : (n + 1 : Int) ≠ 0 := by omega
  fun_induction units cs generalizing opened with
  | case1 =>
    rw [verbatim_nil_iff]
    cases opened with
    | zero => exact iff_of_true rfl rfl
    | succ n =>
      refine iff_of_false ?_ (by omega)
      intro hread
      cases hread
  | case2 c rest ih =>
    have hdepth : braceDepth (opened + 1) [['\\', c]] = opened + 1 := by simp [braceDepth]
    rw [verbatim_cons_iff, hdepth, ← (ih opened).eq]
    cases hc : isLineEnd c with
    | true =>
      -- what is read is shorter than the text by two characters at least
      refine iff_of_false (fun hread => ?_) (by simp [atContinuation, hc])
      have hlength := length_readBraced_add_le true opened (rest ++ ['\x7d'])
      simp only [List.cons_append, readBraced, hc, if_true] at hread
      simp only [hread, List.length_append, List.length_cons] at hlength
      omega
    | false => simp [readBraced, atContinuation, hc, keep_eq_iff, hopened]
  | case3 c rest hpair ih =>
    rw [verbatim_cons_iff]
    by_cases hescape : c = '\\'
    · subst hescape
      cases rest with
      | nil =>
        refine iff_of_false ?_ fun h => h.1.2 rfl
        intro hread
        cases hread
      | cons d rest => exact absurd rfl (hpair d rest rfl)
    by_cases hends : c = '\x7d' ∧ opened = 0
    · obtain ⟨rfl, rfl⟩ := hends
      refine iff_of_false ?_ fun h => not_verbatim_zero _ h.2.2
      intro hread
      cases hread
    obtain ⟨opened', hdepth, hread⟩ := exists_readBraced_cons hescape (not_and.1 hends)
    rw [List.cons_append, hread, keep_eq_iff, hdepth, (ih opened').eq]
    simp [atContinuation, hescape, hopened]

/-- What is read of a text and is as long as the text leaves only the brace behind it. -/
theorem readBraced_eq_of_fst {cs : List Char} (hread : (readBraced false 0 (cs ++ ['\x7d'])).1 = cs)
    (hclosed : (readBraced false 0 (cs ++ ['\x7d'])).2 ≠ []) :
    readBraced false 0 (cs ++ ['\x7d']) = (cs, ['\x7d']) := by
  have hlength := length_readBraced_add_le false 0 (cs ++ ['\x7d'])
  have hstop := readBraced_stop false 0 (cs ++ ['\x7d'])
  refine Prod.ext hread ?_
  obtain ⟨c, more, hmore⟩ := List.exists_cons_of_ne_nil hclosed
  rw [hread, hmore] at hlength
  have hnil : more = [] := by
    rw [← List.length_eq_zero_iff]
    simp only [List.length_append, List.length_cons, List.length_nil] at hlength
    omega
  rw [hmore, hstop c (by rw [hmore]; rfl), hnil]

end Reader

/-! ## Scripts -/

namespace Tree

open Token.Script

theorem toList_braced (v : String) : ("set x \x7b" ++ v ++ "\x7d").toList =
    "set x ".toList ++ '\x7b' :: (v.toList ++ ['\x7d']) := by
  simp [String.toList_append]

theorem parseScript_braced {v : String} (h : Verbatim 1 (units v.toList)) (name : String) :
    parseScript name ("set x \x7b" ++ v ++ "\x7d") =
      .ok ⟨.program, some name, [setting [⟨.string, some v, []⟩] []]⟩ := by
  have hread : Region.braces.read (v.toList ++ ['\x7d']) = (v.toList, ['\x7d']) :=
    (readBraced_eq_iff 0 v.toList).2 h
  have henclosed := Enclosed.braces (String.ofList v.toList)
  rw [parseScript_setting .braces name (toList_braced v) hread henclosed, String.ofList_toList]

/-- A value between braces is the second operand of one command, as it is written, exactly if the
reader drops nothing of it and does not end the word inside it. -/
theorem parseScript_braced_iff (name v : String) :
    (∃ command, parseScript name ("set x \x7b" ++ v ++ "\x7d") =
        .ok ⟨.program, some name, [command]⟩ ∧
      command.children[1]? = some ⟨.operand, none, [⟨.string, some v, []⟩]⟩) ↔
      Verbatim 1 (units v.toList) := by
  constructor
  · rintro ⟨command, hparse, hvalue⟩
    obtain ⟨hclosed, inner, others, _, _, henclosed, htree⟩ :=
      of_parseScript_setting .braces name (toList_braced v) hparse
    refine (readBraced_eq_iff 0 v.toList).1 (readBraced_eq_of_fst ?_ hclosed)
    change Enclosed _ (String.ofList (readBraced false 0 (v.toList ++ ['\x7d'])).1) _ _
      at henclosed
    generalize readBraced false 0 (v.toList ++ ['\x7d']) = read at henclosed ⊢
    cases henclosed
    cases htree
    cases hvalue
    rw [String.toList_ofList]
  · intro h
    exact ⟨_, parseScript_braced h name, rfl⟩

end Tree

/-! ## Runs -/

namespace Session

open Env

/-- A value between braces is stored as it is. -/
theorem run_braced {session : Session} {scope : Scope} {v : String}
    (h : Verbatim 1 (units v.toList))
    (hset : session.setup.commands["set"]? = some (.builtin .set))
    (hcount : 1 ≤ session.setup.limits.commands) (hdepth : 0 ≤ session.setup.limits.nesting)
    (hscope : session.scopes.scopes[session.global]? = some scope) :
    (session.run ("set x \x7b" ++ v ++ "\x7d")).1.outcome = .ok (some v) ∧
      (session.run ("set x \x7b" ++ v ++ "\x7d")).2.get? "x" = some v := by
  let env := session.setup.env 0 session.global
  let s : Run := { session.started with count := session.started.count + 1 }
  have hname : (env.readOperand ⟨.operand, none, [⟨.word, some "x", []⟩]⟩).Returns s "x" s := rfl
  have hvalue : (env.readOperand ⟨.operand, none, [⟨.string, some v, []⟩]⟩).Returns s v s :=
    returns_readFragments_single rfl
  have hlimit : session.started.count + 1 ≤ env.setup.limits.commands := hcount
  obtain ⟨t, hrun, hscopes⟩ := returns_executeCommand_set hset hlimit hname hvalue
  have hcommands : (env.executeCommands none
      [Tree.setting [⟨.string, some v, []⟩] []]).Returns session.started (some v) t :=
    hrun.bind (RunM.returns_pure _ t)
  rw [session.run_eq_finish hdepth (Tree.parseScript_braced h scriptName), hcommands]
  refine ⟨rfl, ?_⟩
  rw [get?, finish, hscopes]
  exact Store.get?_set_self hscope _ v

/-- Braces carry a value as it is exactly if, unit by unit, it holds no continuation and no lone
backslash, and the count of open braces does not come to zero inside it and is one at its end. Then
an assignment stores the value. -/
theorem braces_carry_verbatim (name v : String) :
    ((∃ command, Tree.parseScript name ("set x \x7b" ++ v ++ "\x7d") =
        .ok ⟨.program, some name, [command]⟩ ∧
      command.children[1]? = some ⟨.operand, none, [⟨.string, some v, []⟩]⟩) ↔
      Verbatim 1 (units v.toList)) ∧
    ∀ (session : Session) (scope : Scope), Verbatim 1 (units v.toList) →
      session.setup.commands["set"]? = some (.builtin .set) →
      1 ≤ session.setup.limits.commands → 0 ≤ session.setup.limits.nesting →
      session.scopes.scopes[session.global]? = some scope →
      (session.run ("set x \x7b" ++ v ++ "\x7d")).1.outcome = .ok (some v) ∧
        (session.run ("set x \x7b" ++ v ++ "\x7d")).2.get? "x" = some v := by
  refine ⟨Tree.parseScript_braced_iff name v, ?_⟩
  intro session scope h hset hcount hdepth hscope
  exact run_braced h hset hcount hdepth hscope

/-- Braces that pair up but for one behind a backslash, a line end and what would be substituted
elsewhere; and braces that close the word and open another one. -/
theorem braces_carry_verbatim_escaped_brace :
    let v := "a \x7bb\\\x7d $c\x7d\n[exit] \"\\\\"
    let session := Session.start {} []
    (session.run ("set x \x7b" ++ v ++ "\x7d")).1.outcome = .ok (some v) ∧
      (session.run ("set x \x7b" ++ v ++ "\x7d")).2.get? "x" = some v ∧
      ¬ ∃ command, Tree.parseScript "main" ("set x \x7b" ++ "\x7d \x7b" ++ "\x7d") =
          .ok ⟨.program, some "main", [command]⟩ ∧
        command.children[1]? = some ⟨.operand, none, [⟨.string, some "\x7d \x7b", []⟩]⟩ := by
  intro v session
  have h : Verbatim 1 (units v.toList) := by decide +kernel
  have hclosed : ¬ Verbatim 1 (units "\x7d \x7b".toList) := by decide +kernel
  have hset : session.setup.commands["set"]? = some (.builtin .set) := by decide +kernel
  have hscope : (session.scopes.scopes[session.global]?).isSome = true := by decide +kernel
  obtain ⟨scope, hscope⟩ := Option.isSome_iff_exists.1 hscope
  obtain ⟨houtcome, hstored⟩ := (braces_carry_verbatim "main" v).2 session scope h hset
    (by decide) (by decide) hscope
  exact ⟨houtcome, hstored, mt (braces_carry_verbatim "main" "\x7d \x7b").1.1 hclosed⟩

end Session

end Tickle
