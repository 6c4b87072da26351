import Stencil.Program
import Stencil.Text.Quoted

namespace Stencil

/-!
# Program listings

A listing shows one instruction a line, with its address in front.  Scopes are
shown by number, points by an at sign; an insertion also shows its point and the
expression it stands for.
-/

/-- Conditions of a loop, if there are any. -/
def Instruction.conditionsText : List Condition → String
  | [] => ""
  | conditions => " if " ++ Condition.listText conditions

/-- One instruction without its address. -/
def Instruction.listed : Instruction → String
  | bind scope parent access =>
    "bind #" ++ toString scope ++ " = #" ++ toString parent ++ access.text
  | enter scope parent access conditions point exit =>
    "loop #" ++ toString scope ++ " over #" ++ toString parent ++ access.text
      ++ conditionsText conditions ++ " @" ++ toString point
      ++ " (exit " ++ toString exit ++ ")"
  | next entry => "next " ++ toString entry
  | insert index => "leaf " ++ toString index
  | text literal point => "text @" ++ toString point ++ " " ++ Text.quoted literal
  | separator literal point => "separator @" ++ toString point ++ " " ++ Text.quoted literal

namespace Program

/-- What a listing adds to an instruction: the point and expression of an
insertion. -/
def remark (program : Program) : Instruction → String
  | .insert index =>
    match program.insertions[index]? with
    | some insertion => " @" ++ toString insertion.point ++ " " ++ insertion.chain.text
    | none => ""
  | _ => ""

/-- One instruction with its address. -/
def listed (program : Program) (item : Instruction × Nat) : String :=
  toString item.2 ++ " " ++ item.1.listed ++ program.remark item.1

/-- The listing of a program.  An instruction ends its line; it takes more than one
if the path of a marker has line breaks in it. -/
def listing (program : Program) : String :=
  String.join (program.code.toList.zipIdx.map fun item => program.listed item ++ "\n")

end Program

end Stencil
