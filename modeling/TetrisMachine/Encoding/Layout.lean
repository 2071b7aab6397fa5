import TetrisMachine.Encoding.Template
import TetrisMachine.Text.Blank

/-!
# Layouts

Reading the template that a layout draws. The columns are read from bit 31 down;
each one fixes a bit or gives it to the field of an operand.

* `Template.ofLayout`: the template of a layout.
-/

namespace TetrisMachine

/-- What is wrong with a layout. -/
inductive LayoutFlaw where
  /-- It has not 32 columns. -/
  | width
  /-- A column holds no fixed bit and no operand. -/
  | character
  /-- The columns of an operand are not side by side. -/
  | splitField
  /-- An operand is drawn and one before it is not. -/
  | order
deriving DecidableEq, Repr

def LayoutFlaw.message : LayoutFlaw → String
  | width => "template must be 32 bits wide"
  | character => "unknown template character"
  | splitField => "operand field is not contiguous"
  | order => "operand fields must be f, s, t in that order"

namespace Template

/-- Gives the next lower bit to the field of an operand. The field read last
comes first. -/
def extendField (bit operand : Nat) (fields : List Field) : Except LayoutFlaw (List Field) :=
  match fields with
  | f :: fs =>
    if f.operand = operand ∧ f.shift = bit + 1 then
      .ok ({ f with shift := bit, width := f.width + 1 } :: fs)
    else if fields.any (·.operand = operand) then .error .splitField
    else .ok (⟨operand, bit, 1⟩ :: fields)
  | [] => .ok [⟨operand, bit, 1⟩]

/-- Reads the column of a bit. -/
def readColumn (bit : Nat) (c : Char) (t : Template) : Except LayoutFlaw Template :=
  let field (operand : Nat) : Except LayoutFlaw Template :=
    (extendField bit operand t.fields).map ({ t with fields := · })
  match c with
  | '0' => .ok { t with mask := t.mask ||| BitVec.twoPow 32 bit }
  | '1' => .ok { t with mask := t.mask ||| BitVec.twoPow 32 bit,
                        bits := t.bits ||| BitVec.twoPow 32 bit }
  | 'f' => field 0
  | 's' => field 1
  | 't' => field 2
  | _ => .error .character

/-- Reads the columns of the bits that are left. -/
def readColumns : List Char → Template → Except LayoutFlaw Template
  | [], t => .ok t
  | c :: cs, t => readColumn cs.length c t >>= readColumns cs

/-- The fields in the order of the operands, of which none may be left out. -/
def orderFields (fields : List Field) : Except LayoutFlaw (List Field) :=
  let ordered := (List.range 3).filterMap fun k => fields.find? (·.operand = k)
  if ordered.map (·.operand) = List.range ordered.length then .ok ordered else .error .order

/-- The template of a row of columns. -/
def ofColumns (cs : List Char) : Except LayoutFlaw Template :=
  if cs.length = 32 then do
    let t ← readColumns cs ⟨0, 0, []⟩
    return { t with fields := ← orderFields t.fields }
  else .error .width

/-- The template that a layout draws. -/
def ofLayout (s : String) : Except LayoutFlaw Template :=
  ofColumns (s.toList.filter (!Text.isBlank ·))

end Template

end TetrisMachine
