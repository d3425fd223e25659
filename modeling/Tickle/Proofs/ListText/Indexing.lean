import Tickle.Proofs.ListText.Concatenation

/-! # Indexing nested lists

`lindex` takes an element of a list, an element of that element, and so on. It does not matter
whether the way is gone in one call or in several, and operands that are lists of indices may be
joined by a space if no group is open at the joint. -/

namespace Tickle

open ListText

namespace Lists

/-- Where indices lead from a list: to what the last of them picks, or to the fault of the first
that picks nothing. -/
inductive LeadsTo : String → List String → Except ExecutionFault String → Prop
  | here {list : String} : LeadsTo list [] (.ok list)
  | into {list index element : String} {rest : List String} {i : Int}
      {result : Except ExecutionFault String} : Number.readInt? index = some i → 0 ≤ i →
      (parse list)[i.toNat]? = some element → LeadsTo element rest result →
      LeadsTo list (index :: rest) result
  | outside {list index : String} {rest : List String} {i : Int} :
      Number.readInt? index = some i → i < 0 ∨ (parse list).length ≤ i →
      LeadsTo list (index :: rest) (.error .listIndexOutside)
  | notInteger {list index : String} {rest : List String} : Number.readInt? index = none →
      LeadsTo list (index :: rest) (.error .listIndexNotInteger)

/-- The outcome of a command that the node calls. -/
def raisedAt (node : Node) : Except ExecutionFault String → Except Error String :=
  Except.mapError fun fault => .execution fault (some node.site)

theorem element_of_getElem? (node : Node) {list index e : String} {i : Int}
    (hindex : Number.readInt? index = some i) (hi : 0 ≤ i)
    (he : (parse list)[i.toNat]? = some e) : element node list index = .ok e := by
  simp only [element, hindex, hi, if_true, he]

theorem element_of_outside (node : Node) {list index : String} {i : Int}
    (hindex : Number.readInt? index = some i) (hi : i < 0 ∨ (parse list).length ≤ i) :
    element node list index = .error (.execution .listIndexOutside (some node.site)) := by
  simp only [element, hindex]
  split
  · rename_i hle
    have hnone : (parse list)[i.toNat]? = none := List.getElem?_eq_none (by omega)
    rw [hnone]
  · rfl

/-- The indices of the operands are followed one after the other. -/
theorem LeadsTo.foldlM_eq (node : Node) {list : String} {indices : List String}
    {result : Except ExecutionFault String} (h : LeadsTo list indices result) :
    indices.foldlM (element node) list = raisedAt node result := by
  induction h with
  | here => rfl
  | into hindex hi he _ ih =>
    rw [List.foldlM_cons, element_of_getElem? node hindex hi he]
    exact ih
  | outside hindex hi =>
    rw [List.foldlM_cons, element_of_outside node hindex hi]
    rfl
  | notInteger hindex =>
    rw [List.foldlM_cons, element, hindex]
    rfl

/-- All indices lead somewhere. -/
theorem exists_leadsTo (list : String) (indices : List String) :
    ∃ result, LeadsTo list indices result := by
  induction indices generalizing list with
  | nil => exact ⟨_, .here⟩
  | cons index rest ih =>
    cases hindex : Number.readInt? index with
    | none => exact ⟨_, .notInteger hindex⟩
    | some i =>
      by_cases hi : i < 0 ∨ (parse list).length ≤ i
      · exact ⟨_, .outside hindex hi⟩
      · have hlt : i.toNat < (parse list).length := by omega
        obtain ⟨result, hresult⟩ := ih (parse list)[i.toNat]
        exact ⟨result, .into hindex (by omega) (List.getElem?_eq_getElem hlt) hresult⟩

theorem index_append (node : Node) (list : String) (ps qs : List String) :
    index node list (ps ++ qs) = index node list ps >>= fun value => index node value qs := by
  rw [index, List.flatMap_append, List.foldlM_append]
  rfl

/-- Two operands are one operand in two parts. -/
theorem index_joined {p : String} (hp : Closed p) (node : Node) (list q : String)
    (before after : List String) :
    index node list (before ++ p :: q :: after) =
      index node list (before ++ (p ++ " " ++ q) :: after) := by
  have hindices : (before ++ p :: q :: after).flatMap parse =
      (before ++ (p ++ " " ++ q) :: after).flatMap parse := by
    simp only [List.flatMap_append, List.flatMap_cons, hp.parse_append, List.append_assoc]
  rw [index, hindices, ← index]

end Lists

namespace Env

/-- What `lindex` leaves: the value that was reached, or the error. -/
def indexed (result : Except Error String) : RunM Outcome :=
  RunM.ofExcept (result.map fun value => ⟨some value, none⟩)

theorem perform_lindex (env : Env) (node : Node) (list : String) (operands : List String) :
    env.perform .lindex node (list :: operands) = indexed (Lists.index node list operands) := by
  rw [perform]
  cases Lists.index node list operands <;> rfl

/-- `lindex` follows the indices of all its operands from its list on, and stops at the first that
picks nothing. So calls in turn, each on the value of the one before it, give the value or the error
of one call with all the operands; and a closed operand may be joined with the next one. -/
theorem lindex_drills (env : Env) (node : Node) (list : String) :
    (∀ operands, ∃ result, Lists.LeadsTo list (operands.flatMap parse) result ∧
      env.perform .lindex node (list :: operands) = indexed (Lists.raisedAt node result)) ∧
    (∀ ps qs, env.perform .lindex node (list :: (ps ++ qs)) = do
      let reached ← env.perform .lindex node (list :: ps)
      env.perform .lindex node (reached.value.getD "" :: qs)) ∧
    ∀ before p q after, Closed p →
      env.perform .lindex node (list :: (before ++ p :: q :: after)) =
        env.perform .lindex node (list :: (before ++ (p ++ " " ++ q) :: after)) := by
  refine ⟨fun operands => ?_, fun ps qs => ?_, fun before p q after hp => ?_⟩
  · obtain ⟨result, hresult⟩ := Lists.exists_leadsTo list (operands.flatMap parse)
    refine ⟨result, hresult, ?_⟩
    rw [perform_lindex, Lists.index, hresult.foldlM_eq node]
  · rw [perform_lindex, perform_lindex, Lists.index_append]
    cases Lists.index node list ps with
    | error e => rfl
    | ok value => exact (perform_lindex env node value qs).symm
  · rw [perform_lindex, perform_lindex, Lists.index_joined hp]

/-- Three levels down, with an operand of two indices and with two operands. -/
theorem lindex_drills_three_levels :
    let env := Setup.env {} 0 0
    let node : Node := ⟨.command, some "lindex", []⟩
    Closed "{1} " ∧
      env.perform .lindex node ["a {b {c d} e} f", "{1} ", "1 0"] = indexed (.ok "c") ∧
      env.perform .lindex node ["a {b {c d} e} f", "{1}  1 0"] = indexed (.ok "c") := by
  intro env node
  have hclosed : Closed "{1} " := by decide
  obtain ⟨-, -, hjoined⟩ := lindex_drills env node "a {b {c d} e} f"
  have hsplit : env.perform .lindex node ["a {b {c d} e} f", "{1} ", "1 0"] =
      indexed (.ok "c") := by
    rw [perform_lindex]
    exact congrArg indexed (by decide)
  exact ⟨hclosed, hsplit, (hjoined [] "{1} " "1 0" [] hclosed).symm.trans hsplit⟩

end Env

end Tickle
