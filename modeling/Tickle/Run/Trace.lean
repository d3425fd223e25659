import Tickle.Error

/-!
Traces of runs. Every command leaves one entry; a script that is evaluated on the way leaves its
own trace, in brackets, before the entry of the command that evaluated it.
-/

namespace Tickle.Trace

inductive Entry where
  | started (script : String)
  | called (command : String) (operands : List String) (result : Option String)
  | assigned (name value : String)
  | removed (name : String)
  | wrote (value : String)
  | computed (value : String)
  | chose (result : Option String)
  | looped (loop : Loop) (result : Option String)
  | nested (entries : List Entry)
  deriving Repr

def resultText (result : Option String) : String := result.getD "None"

mutual

def Entry.render : Entry → String
  | .started script => "Executing " ++ script ++ ":\n"
  | .called command operands result =>
    " Command: " ++ command ++ " with args: " ++ ", ".intercalate operands
      ++ " producing result: " ++ resultText result ++ "\n"
  | .assigned name value => " " ++ name ++ "=" ++ value ++ ";\n"
  | .removed name => " " ++ name ++ "=undefined;\n"
  | .wrote value => " output: " ++ value ++ ";\n"
  | .computed value => " expression=" ++ value ++ ";\n"
  | .chose result => " if=then: " ++ resultText result ++ ";\n"
  | .looped loop result => " '" ++ loop.name ++ "' expression=" ++ resultText result ++ ";\n"
  | .nested entries => "[" ++ renderAll entries ++ "]\n"

def renderAll : List Entry → String
  | [] => ""
  | e :: rest => e.render ++ renderAll rest

end

/-- Every entry ends a line. -/
theorem Entry.getLast?_render (e : Entry) : e.render.toList.getLast? = some '\n' := by
  have hends (front last : String) (h : last.toList.getLast? = some '\n') :
      (front ++ last).toList.getLast? = some '\n' := by
    rw [String.toList_append, List.getLast?_append, h]
    rfl
  cases e <;> exact hends _ _ (by decide)

theorem Entry.render_ne_empty (e : Entry) : e.render ≠ "" := by
  intro hempty
  have hlast := e.getLast?_render
  rw [hempty] at hlast
  cases hlast

end Tickle.Trace
