import TypedQuery.Error

/-!
# The server's lexer

Statement text is cut into tokens one character at a time.  The state says which token is open;
a character either continues it or closes it and is then read as the first of the next one.
Comments, decimal fractions and the rarer string forms are refused.
-/

namespace TypedQuery
namespace Server

/-- Words have their letters in lower case; texts and names have their quotes taken off. -/
inductive Token where
  | word (name : String)
  | quoted (name : String)
  | string (text : String)
  | number (n : Nat)
  | parameter (index : Nat)
  | operator (symbol : String)
  | typecast
  | mark (c : Char)
deriving DecidableEq

inductive Lexing where
  | start
  | word (acc : List Char)
  | quoted (acc : List Char)
  | quotedEnd (acc : List Char)
  | string (escapes : Bool) (acc : List Char)
  | escape (acc : List Char)
  | stringEnd (escapes : Bool) (acc : List Char)
  | number (acc : List Char)
  | dollar
  | parameter (acc : List Char)
  | operator (acc : List Char)
  | colon
deriving DecidableEq

def isSpace (c : Char) : Bool := c.isWhitespace || c == '\x0b' || c == '\x0c'

def isWordStart (c : Char) : Bool := c.isAlpha || c == '_' || 128 ≤ c.toNat

def isWordChar (c : Char) : Bool := isWordStart c || c.isDigit || c == '$'

def isOperatorChar (c : Char) : Bool :=
  ['~', '!', '@', '#', '^', '&', '|', '`', '?', '+', '-', '*', '/', '%', '<', '>', '='].contains c

def isMark (c : Char) : Bool := ['(', ')', '[', ']', ',', '.', ';'].contains c

def isSign (c : Char) : Bool := c == '+' || c == '-'

/-- The characters that let an operator end with a sign. -/
def keepsSigns (c : Char) : Bool :=
  ['~', '!', '@', '#', '^', '&', '|', '`', '?', '%'].contains c

/-- What a character after a backslash stands for; numeric escapes are refused. -/
def escaped? (c : Char) : Option Char :=
  if c == 'b' then some '\x08'
  else if c == 'f' then some '\x0c'
  else if c == 'n' then some '\n'
  else if c == 'r' then some '\r'
  else if c == 't' then some '\t'
  else if c.isDigit || c == 'x' || c == 'u' || c == 'U' then none
  else some c

def startsComment : List Char -> Bool
  | '-' :: '-' :: _ => true
  | '/' :: '*' :: _ => true
  | _ :: rest => startsComment rest
  | [] => false

/-- A run of operator characters is one operator, but signs at its end stand alone unless the
run has a character that keeps them. -/
def operatorTokens (run : List Char) : List Token :=
  if run.any keepsSigns then [.operator (String.ofList run)]
  else
    let signs := run.reverse.takeWhile isSign
    let alone := signs.map fun c => .operator (String.singleton c)
    match run.take (run.length - signs.length) with
    | [] => alone.reverse
    | symbol => .operator (String.ofList symbol) :: alone.reverse

namespace Lexing

def closed? : Lexing -> Option (List Token)
  | start => some []
  | word acc => some [.word (String.ofList acc)]
  | quotedEnd acc => some [.quoted (String.ofList acc)]
  | stringEnd _ acc => some [.string (String.ofList acc)]
  | number acc => some [.number (Nat.ofDigitChars 10 acc 0)]
  | parameter acc => some [.parameter (Nat.ofDigitChars 10 acc 0)]
  | operator acc => if startsComment acc then none else some (operatorTokens acc)
  | _ => none

def enter (conforming : Bool) (c : Char) : Option (List Token × Lexing) :=
  if isSpace c then some ([], start)
  else if isWordStart c then some ([], word [c.toLower])
  else if c.isDigit then some ([], number [c])
  else if isOperatorChar c then some ([], operator [c])
  else if isMark c then some ([.mark c], start)
  else if c == '"' then some ([], quoted [])
  else if c == '\'' then some ([], string (!conforming) [])
  else if c == '$' then some ([], dollar)
  else if c == ':' then some ([], colon)
  else none

def leave (conforming : Bool) (q : Lexing) (c : Char) : Option (List Token × Lexing) :=
  q.closed?.bind fun tokens =>
    (enter conforming c).map fun (more, next) => (tokens ++ more, next)

/-- Reads one character: the tokens that it completes and the next state.  Without conforming
strings a backslash in a plain string is an escape. -/
def step (conforming : Bool) (q : Lexing) (c : Char) : Option (List Token × Lexing) :=
  match q with
  | start => enter conforming c
  | word acc =>
      if isWordChar c then some ([], word (acc ++ [c.toLower]))
      else if c == '\'' then if acc = ['e'] then some ([], string true []) else none
      else if c == '&' && acc = ['u'] then none
      else leave conforming q c
  | quoted acc =>
      if c == '"' then some ([], quotedEnd acc) else some ([], quoted (acc ++ [c]))
  | quotedEnd acc =>
      if c == '"' then some ([], quoted (acc ++ [c])) else leave conforming q c
  | string escapes acc =>
      if c == '\'' then some ([], stringEnd escapes acc)
      else if escapes && c == '\\' then some ([], escape acc)
      else some ([], string escapes (acc ++ [c]))
  | escape acc => (escaped? c).map fun d => ([], string true (acc ++ [d]))
  | stringEnd escapes acc =>
      if c == '\'' then some ([], string escapes (acc ++ [c])) else leave conforming q c
  | number acc =>
      if c.isDigit then some ([], number (acc ++ [c]))
      else if isWordStart c || c == '.' then none
      else leave conforming q c
  | dollar => if c.isDigit then some ([], parameter [c]) else none
  | parameter acc =>
      if c.isDigit then some ([], parameter (acc ++ [c]))
      else if isWordStart c then none
      else leave conforming q c
  | operator acc =>
      if isOperatorChar c then some ([], operator (acc ++ [c])) else leave conforming q c
  | colon => if c == ':' then some ([.typecast], start) else none

def feed (conforming : Bool) : Lexing -> List Char -> Option (List Token × Lexing)
  | q, [] => some ([], q)
  | q, c :: rest =>
      (q.step conforming c).bind fun (tokens, next) =>
        (feed conforming next rest).map fun (more, last) => (tokens ++ more, last)

end Lexing

def tokens? (conforming : Bool) (text : List Char) : Option (List Token) :=
  (Lexing.start.feed conforming text).bind fun (tokens, last) =>
    last.closed?.map fun more => tokens ++ more

namespace Lexing

theorem feed_append (conforming : Bool) (q : Lexing) (first second : List Char) :
    q.feed conforming (first ++ second) =
      (q.feed conforming first).bind fun (tokens, next) =>
        (next.feed conforming second).map fun (more, last) => (tokens ++ more, last) := by
  induction first generalizing q with
  | nil =>
      cases h : q.feed conforming second <;> simp [feed, h]
  | cons c rest ih =>
      rw [List.cons_append, feed, feed]
      cases hstep : q.step conforming c with
      | none => rfl
      | some reached =>
          rcases reached with ⟨tokens, next⟩
          simp only [Option.bind_some, ih]
          cases next.feed conforming rest with
          | none => rfl
          | some reached =>
              rcases reached with ⟨more, last⟩
              simp only [Option.bind_some, Option.map_some, Option.map_map]
              cases last.feed conforming second <;> simp

theorem feed_of_append {conforming : Bool} {q next last : Lexing} {first second : List Char}
    {tokens more : List Token} (hfirst : q.feed conforming first = some (tokens, next))
    (hsecond : next.feed conforming second = some (more, last)) :
    q.feed conforming (first ++ second) = some (tokens ++ more, last) := by
  rw [feed_append, hfirst, Option.bind_some]
  simp only [hsecond, Option.map_some]

end Lexing

/-!
## Stretches of text

A stretch that leaves no token open can be followed by anything.  Most stretches end inside a token
and need a character after them that closes it.
-/

def isDelimiter (c : Char) : Bool := [')', ']', '[', ',', '-', ':', ' '].contains c

/-- The open token of a state is whole, and every delimiter closes it. -/
def Lexing.Closes (conforming : Bool) (q : Lexing) (tokens : List Token) : Prop :=
  q.closed? = some tokens ∧
    forall c, isDelimiter c = true ->
      q.step conforming c =
        (Lexing.enter conforming c).map fun (more, next) => (tokens ++ more, next)

/-- The text is cut into the tokens, and no token is open at its end. -/
def Opens (conforming : Bool) (text : List Char) (tokens : List Token) : Prop :=
  Lexing.start.feed conforming text = some (tokens, .start)

/-- The text is cut into the tokens when a delimiter or nothing follows. -/
def Lexes (conforming : Bool) (text : List Char) (tokens : List Token) : Prop :=
  exists done q last,
    Lexing.start.feed conforming text = some (done, q) ∧ q.Closes conforming last ∧
      tokens = done ++ last

theorem Opens.append {conforming : Bool} {first second : List Char} {tokens more : List Token}
    (hfirst : Opens conforming first tokens) (hsecond : Lexes conforming second more) :
    Lexes conforming (first ++ second) (tokens ++ more) := by
  rcases hsecond with ⟨done, q, last, hfeed, hcloses, rfl⟩
  refine ⟨tokens ++ done, q, last, Lexing.feed_of_append hfirst hfeed, hcloses, ?_⟩
  rw [List.append_assoc]

theorem Lexing.Closes.feed {conforming : Bool} {q : Lexing} {last : List Token}
    (hq : q.Closes conforming last) {c : Char} (hc : isDelimiter c = true) {rest : List Char}
    {more : List Token} {q' : Lexing}
    (hfeed : Lexing.start.feed conforming (c :: rest) = some (more, q')) :
    q.feed conforming (c :: rest) = some (last ++ more, q') := by
  rw [Lexing.feed] at hfeed ⊢
  rw [hq.2 c hc]
  rw [show Lexing.start.step conforming c = Lexing.enter conforming c from rfl] at hfeed
  cases henter : Lexing.enter conforming c with
  | none =>
      rw [henter] at hfeed
      cases hfeed
  | some reached =>
      rcases reached with ⟨tokens, next⟩
      rw [henter] at hfeed
      simp only [Option.bind_some, Option.map_some, List.append_assoc] at hfeed ⊢
      cases hrest : next.feed conforming rest with
      | none =>
          rw [hrest] at hfeed
          cases hfeed
      | some reached =>
          rw [hrest] at hfeed
          cases hfeed
          rfl

theorem Lexes.append {conforming : Bool} {first second : List Char} {tokens more : List Token}
    (hfirst : Lexes conforming first tokens) {c : Char} {rest : List Char}
    (hhead : second = c :: rest) (hc : isDelimiter c = true)
    (hsecond : Lexes conforming second more) :
    Lexes conforming (first ++ second) (tokens ++ more) := by
  subst hhead
  rcases hfirst with ⟨done, q, last, hfeed, hcloses, rfl⟩
  rcases hsecond with ⟨done', q', last', hfeed', hcloses', rfl⟩
  refine ⟨done ++ (last ++ done'), q', last', ?_, hcloses', ?_⟩
  · exact Lexing.feed_of_append hfeed (hcloses.feed hc hfeed')
  · simp only [List.append_assoc]

theorem Lexes.append_opens {conforming : Bool} {first second : List Char}
    {tokens more : List Token} (hfirst : Lexes conforming first tokens) {c : Char}
    {rest : List Char} (hhead : second = c :: rest) (hc : isDelimiter c = true)
    (hsecond : Opens conforming second more) :
    Opens conforming (first ++ second) (tokens ++ more) := by
  subst hhead
  rcases hfirst with ⟨done, q, last, hfeed, hcloses, rfl⟩
  have h := Lexing.feed_of_append hfeed (hcloses.feed hc hsecond)
  rwa [<- List.append_assoc] at h

theorem tokens?_of_lexes {conforming : Bool} {text : List Char} {tokens : List Token}
    (h : Lexes conforming text tokens) : tokens? conforming text = some tokens := by
  rcases h with ⟨done, q, last, hfeed, hcloses, rfl⟩
  unfold tokens?
  rw [hfeed, Option.bind_some]
  simp only [hcloses.1, Option.map_some]

/-!
## Whole tokens at the end of a stretch
-/

theorem closes_start (conforming : Bool) : Lexing.start.Closes conforming [] := by
  refine ⟨rfl, ?_⟩
  intro c _
  cases h : Lexing.enter conforming c <;> simp [Lexing.step, h]

theorem Opens.lexes {conforming : Bool} {text : List Char} {tokens : List Token}
    (h : Opens conforming text tokens) : Lexes conforming text tokens :=
  ⟨tokens, .start, [], h, closes_start conforming, (List.append_nil tokens).symm⟩

theorem eq_of_isDelimiter {c : Char} (hc : isDelimiter c = true) :
    c = ')' ∨ c = ']' ∨ c = '[' ∨ c = ',' ∨ c = '-' ∨ c = ':' ∨ c = ' ' := by
  simpa [isDelimiter] using hc

theorem closes_of_leave {conforming : Bool} {q : Lexing} {tokens : List Token}
    (hclosed : q.closed? = some tokens)
    (hleave : forall c, isDelimiter c = true -> q.step conforming c = q.leave conforming c) :
    q.Closes conforming tokens := by
  refine ⟨hclosed, ?_⟩
  intro c hc
  rw [hleave c hc, Lexing.leave, hclosed, Option.bind_some]

theorem closes_word (conforming : Bool) (acc : List Char) :
    (Lexing.word acc).Closes conforming [.word (String.ofList acc)] := by
  apply closes_of_leave rfl
  intro c hc
  rcases eq_of_isDelimiter hc with rfl | rfl | rfl | rfl | rfl | rfl | rfl <;> rfl

theorem closes_quotedEnd (conforming : Bool) (acc : List Char) :
    (Lexing.quotedEnd acc).Closes conforming [.quoted (String.ofList acc)] := by
  apply closes_of_leave rfl
  intro c hc
  rcases eq_of_isDelimiter hc with rfl | rfl | rfl | rfl | rfl | rfl | rfl <;> rfl

theorem closes_stringEnd (conforming escapes : Bool) (acc : List Char) :
    (Lexing.stringEnd escapes acc).Closes conforming [.string (String.ofList acc)] := by
  apply closes_of_leave rfl
  intro c hc
  rcases eq_of_isDelimiter hc with rfl | rfl | rfl | rfl | rfl | rfl | rfl <;> rfl

theorem closes_number (conforming : Bool) (acc : List Char) :
    (Lexing.number acc).Closes conforming [.number (Nat.ofDigitChars 10 acc 0)] := by
  apply closes_of_leave rfl
  intro c hc
  rcases eq_of_isDelimiter hc with rfl | rfl | rfl | rfl | rfl | rfl | rfl <;> rfl

theorem closes_parameter (conforming : Bool) (acc : List Char) :
    (Lexing.parameter acc).Closes conforming [.parameter (Nat.ofDigitChars 10 acc 0)] := by
  apply closes_of_leave rfl
  intro c hc
  rcases eq_of_isDelimiter hc with rfl | rfl | rfl | rfl | rfl | rfl | rfl <;> rfl

end Server
end TypedQuery
