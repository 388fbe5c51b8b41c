import FileCluster.Text.Lossy

/-!
Text without what a terminal would obey.

`plain` leaves out control characters and escape sequences and keeps what a terminal would show,
blanks included. A sequence begins with the escape character and ends with a character that depends
on its kind. A control character that is a blank is shown even in the middle of the shorter
sequences; it suspends the sequence, and what follows is shown until another control character
takes the sequence up again.

Main statements: nothing is added (`plainFrom_sublist`), and text without control characters stays
as it is (`plain_of_shown`).
-/

namespace FileCluster.Text

/-- The character that begins a sequence. -/
def escapeChar : Char := Char.ofNat 0x1b

/-- Whether a character lies between two code points. -/
def isBetween (low high : Nat) (c : Char) : Bool := low ≤ c.toNat && c.toNat ≤ high

/-- A control character that is a blank. -/
def isControlBlank (c : Char) : Bool := c = '\t' || c = '\n' || c = '\r' || c = Char.ofNat 0x0c

/-- A character that is shown outside of sequences: a blank, or anything else that is no ASCII
control character. -/
def isShown (c : Char) : Bool := isControlBlank c || (0x20 ≤ c.toNat && c.toNat ≠ 0x7f)

/-- A sequence of which not all has been read. -/
inductive EscapeSequence where
  /-- the escape character -/
  | escape
  /-- a sequence that has announced its last character -/
  | intermediate
  /-- a control sequence -/
  | control
  /-- the beginning of a device string -/
  | device
  /-- a device string up to one of its parameters -/
  | deviceParameters
  /-- a device string that has announced its body -/
  | deviceIntermediate
  /-- an operating system command -/
  | command
  /-- the body of a device string, or any other string -/
  | body
  deriving DecidableEq, Repr

namespace EscapeSequence

/-- What a sequence is after one more character: nothing if the character ends it. Two control
characters end every sequence, and the escape character begins another one. -/
def after (q : EscapeSequence) (c : Char) : Option EscapeSequence :=
  if c.toNat = 0x18 ∨ c.toNat = 0x1a then none
  else if c = escapeChar then some escape
  else
    match q with
    | escape =>
      if c = '[' then some control
      else if c = ']' then some command
      else if c = 'P' then some device
      else if c = 'X' ∨ c = '^' ∨ c = '_' then some body
      else if isBetween 0x20 0x2f c then some intermediate
      else if isBetween 0x30 0x7e c then none
      else some escape
    | intermediate => if isBetween 0x30 0x7e c then none else some intermediate
    | control => if isBetween 0x40 0x7e c then none else some control
    | device =>
      if isBetween 0x20 0x2f c then some deviceIntermediate
      else if isBetween 0x30 0x3f c then some deviceParameters
      else if isBetween 0x40 0x7e c then some body
      else some device
    | deviceParameters =>
      if isBetween 0x20 0x2f c then some deviceIntermediate
      else if isBetween 0x3c 0x7e c then some body
      else some deviceParameters
    | deviceIntermediate =>
      if isBetween 0x30 0x7e c then some body else some deviceIntermediate
    | command => if c.toNat = 0x07 then none else some command
    | body => if 0x9c ∈ encode c.toString then none else some body

/-- Whether blanks in the middle of a sequence are shown. -/
def showsBlanks : EscapeSequence → Bool
  | escape | intermediate | control => true
  | _ => false

end EscapeSequence

/-- Where in a text a terminal is. -/
inductive TerminalState where
  /-- outside of sequences -/
  | outside
  /-- in the middle of a sequence -/
  | inside (q : EscapeSequence)
  /-- after a blank in the middle of a sequence -/
  | suspended (q : EscapeSequence)
  deriving DecidableEq, Repr

namespace TerminalState

/-- The state within a sequence, if it goes on. -/
def ofSequence : Option EscapeSequence → TerminalState
  | some q => .inside q
  | none => .outside

/-- Whether one character is shown, and the state after it. -/
def step : TerminalState → Char → Bool × TerminalState
  | .outside, c => (isShown c, if c = escapeChar then .inside .escape else .outside)
  | .inside q, c =>
    if isControlBlank c && q.showsBlanks then (true, .suspended q)
    else (false, ofSequence (q.after c))
  | .suspended q, c =>
    if isShown c then (true, if c.toNat < 0x80 then .suspended q else .outside)
    else (false, ofSequence (q.after c))

end TerminalState

/-- The characters that a terminal shows, from a state on. -/
def plainFrom (s : TerminalState) : List Char → List Char
  | [] => []
  | c :: cs =>
    let (shown, s) := s.step c
    if shown then c :: plainFrom s cs else plainFrom s cs

/-- A text without what a terminal would obey. -/
def plain (s : String) : String := String.ofList (plainFrom .outside s.toList)

/-- Nothing is added. -/
theorem plainFrom_sublist (s : TerminalState) (cs : List Char) :
    (plainFrom s cs).Sublist cs := by
  induction cs generalizing s with
  | nil => exact .slnil
  | cons c cs ih =>
    simp only [plainFrom]
    split
    · exact (ih _).cons_cons c
    · exact (ih _).cons c

/-- A character that is shown begins no sequence. -/
theorem ne_escapeChar_of_isShown {c : Char} (h : isShown c = true) : c ≠ escapeChar := by
  rintro rfl
  revert h
  decide

/-- Text without control characters, blanks apart, stays as it is. -/
theorem plain_of_shown {s : String} (h : ∀ c ∈ s.toList, isShown c = true) : plain s = s := by
  have all : ∀ cs : List Char, (∀ c ∈ cs, isShown c = true) → plainFrom .outside cs = cs := by
    intro cs hcs
    induction cs with
    | nil => rfl
    | cons c cs ih =>
      have hc := hcs c (List.mem_cons_self ..)
      simp only [plainFrom, TerminalState.step, hc, ne_escapeChar_of_isShown hc, if_true, if_false]
      rw [ih fun d hd => hcs d (List.mem_cons_of_mem _ hd)]
  rw [plain, all _ h, String.ofList_toList]

end FileCluster.Text
