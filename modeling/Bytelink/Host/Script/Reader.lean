import Bytelink.Host.Script.Lexer

/-!
# Reading a script

Builds the tree of a script by recursive descent. The scripts inside substitutions are read with the
rest, so one that is malformed spoils the whole line. A script is read line by line: `readLine`
yields the commands of one line, since the names that they are called by may be changed by the lines
before. Every step either takes a character or descends one level of the grammar, so the fuel is
more than any script needs.
-/
namespace Bytelink.Script

open Reading

/-- What a simple command consists of, each part with its newest item first. -/
structure Parts where
  assignments : List (Text × Word)
  words : List Word
  redirections : List Redirection

def Parts.empty : Parts := ⟨[], [], []⟩

def Parts.node (p : Parts) (line : Nat) : Node :=
  .simple line p.assignments.reverse p.words.reverse p.redirections.reverse

/-- Refuses a token after which the text goes on at `after`. -/
def unexpected {α : Type} (t : Token) (after : Source) (mayBeKeyword : Bool)
    (expected? : Option Text) : Reading α :=
  throw ⟨after.line, .unexpected (t.describe mayBeKeyword) expected?⟩

def inDoubleQuotes (t : Text) : Text := '"' :: t ++ ['"']

/-- A list of commands as one command. -/
def sequence : List Node → Node
  | [node] => node
  | nodes => .sequence nodes

/-- The pieces of a word after a quoted part has been put behind those of `before`. Quotes around
nothing but the list of all parameters do not count, so that an empty list makes no field. -/
def withoutQuotes (before after : Word) : Word :=
  match after with
  | .parameter true ['@'] .value :: .quoted [] :: rest =>
      if rest.length = before.length then .parameter true ['@'] .value :: rest else after
  | _ => after

/-- Characters that keep no backslash in front of them between double quotes. -/
def isEscapable (c : Char) : Bool := c == '\\' || c == '$' || c == '\x60'

/-- The operation that a mark between the braces of a parameter begins, given its operand. -/
def operationOfMark (colon : Bool) : Char → Option (Word → Operation)
  | '-' => some (.orElse colon)
  | '=' => some (.assign colon)
  | '+' => some (.ifSet colon)
  | '?' => some (.demand colon)
  | _ => none

/-- The name between the braces of a parameter, and whether its length is asked for. Without a name
there is no such parameter. -/
def parameterName : Reading (Option (Text × Bool)) := do
  let bound := steps
  match ← peek with
  | some '#' =>
      skip
      match (← peek), (← get).rest.drop 1 with
      | some c, next =>
          if isNameChar c then
            let name ← takeWhile (if isNameStart c then isNameChar else Char.isDigit) bound
            pure (some (name, true))
          else if c ≠ '\x7d' && next.head? == some '\x7d' then
            if isSpecialName c then
              skip
              pure (some ([c], true))
            else pure none
          else pure (some (['#'], false))
      | none, _ => pure (some (['#'], false))
  | some c =>
      if isNameStart c then return some (← takeWhile isNameChar bound, false)
      else if c.isDigit then return some (← takeWhile Char.isDigit bound, false)
      else if isSpecialName c then
        skip
        pure (some ([c], false))
      else pure none
  | none => pure none

/-- The text between back quotes. A backslash protects a back quote, a dollar sign and itself, and
between double quotes also one of these. -/
def backQuoted (isQuoted : Bool) : Nat → Text → Reading Text
  | 0, _ => refuse .openBackQuote
  | fuel + 1, inside => do
      match ← peek with
      | none => refuse .openBackQuote
      | some '\x60' =>
          skip
          pure inside.reverse
      | some '\\' =>
          skip
          match ← take with
          | none => refuse .openBackQuote
          | some c =>
              if isEscapable c || (isQuoted && c == '"') then backQuoted isQuoted fuel (c :: inside)
              else backQuoted isQuoted fuel (c :: '\\' :: inside)
      | some c =>
          skip
          backQuoted isQuoted fuel (c :: inside)

def redirectOperator : Reading Text := do
  if ← accept '>' then
    if ← accept '>' then pure ['>', '>']
    else if ← accept '|' then pure ['>', '|']
    else if ← accept '&' then pure ['>', '&']
    else pure ['>']
  else
    skip
    if ← accept '<' then
      if ← accept '-' then pure ['<', '<', '-'] else pure ['<', '<']
    else if ← accept '&' then pure ['<', '&']
    else if ← accept '>' then pure ['<', '>']
    else pure ['<']

/-- The text up to the closing double quote in the mark of a document, last character first. -/
def markQuoted : Nat → Text → Reading Text
  | 0, inside => pure inside
  | fuel + 1, inside => do
      match ← peek with
      | none => refuse .openQuotes
      | some '"' =>
          skip
          pure inside
      | some '\\' =>
          skip
          match ← take with
          | some c =>
              let isTaken := isEscapable c || c == '"'
              markQuoted fuel (if isTaken then c :: inside else c :: '\\' :: inside)
          | none => refuse .openQuotes
      | some c =>
          skip
          markQuoted fuel (c :: inside)

mutual

/-- The pieces of a word up to its end, newest first, and whether any of it is quoted. In the mark
of a text document nothing is expanded. -/
def wordPieces : Nat → Bool → Word → Bool → Reading (Word × Bool)
  | 0, _, w, isQuoted => pure (w, isQuoted)
  | fuel + 1, isMark, w, isQuoted => do
      match ← peek with
      | none => pure (w, isQuoted)
      | some c =>
          if endsWord c then pure (w, isQuoted)
          else
            skip
            if c = '\'' then
              let inside ← takeThrough '\'' .openQuotes steps []
              wordPieces fuel isMark (.quoted inside :: w) true
            else if c = '"' && isMark then
              let inside ← markQuoted steps []
              wordPieces fuel isMark (.quoted inside.reverse :: w) true
            else if c = '"' then
              let inside ← double fuel false (.quoted [] :: w)
              wordPieces fuel isMark (withoutQuotes w inside) true
            else if c = '\\' then
              match ← take with
              | some e => wordPieces fuel isMark (.quoted [e] :: w) true
              | none => pure (addQuoted '\\' w, true)
            else if c = '$' && !isMark then
              match ← dollar fuel false with
              | some piece => wordPieces fuel isMark (piece :: w) isQuoted
              | none => wordPieces fuel isMark (addPlain c w) isQuoted
            else if c = '\x60' && !isMark then
              wordPieces fuel isMark ((← backQuote fuel false) :: w) isQuoted
            else wordPieces fuel isMark (addPlain c w) isQuoted

/-- The pieces up to the closing double quote, newest first. A text document has none and is read up
to its mark. -/
def double : Nat → Bool → Word → Reading Word
  | 0, _, w => pure w
  | fuel + 1, isDocument, w => do
      match ← peek with
      | none => if isDocument then pure w else refuse .openQuotes
      | some c =>
          skip
          if c = '"' && !isDocument then pure w
          else if c = '\\' then
            match ← take with
            | some e =>
                if isEscapable e || (e == '"' && !isDocument) then
                  double fuel isDocument (addQuoted e w)
                else double fuel isDocument (addQuoted e (addQuoted '\\' w))
            | none => double fuel isDocument (addQuoted '\\' w)
          else if c = '$' then
            match ← dollar fuel true with
            | some piece => double fuel isDocument (piece :: w)
            | none => double fuel isDocument (addQuoted c w)
          else if c = '\x60' then double fuel isDocument ((← backQuote fuel true) :: w)
          else if c = '\n' && isDocument then
            if ← endsDocument then pure (addQuoted c w) else double fuel isDocument (addQuoted c w)
          else double fuel isDocument (addQuoted c w)

/-- The piece that a dollar sign begins, if it begins one. -/
def dollar : Nat → Bool → Reading (Option Piece)
  | 0, _ => pure none
  | fuel + 1, isQuoted => do
      match ← peek with
      | none => pure none
      | some c =>
          if c = '(' then
            skip
            if ← accept '(' then
              return some (.arithmetic isQuoted (← arithmetic fuel 0 []).reverse)
            else
              let outer ← get
              set { outer with pending := [], document? := none }
              let script ← commands fuel true []
              let (t, after) ← peekToken fuel false
              match t with
              | .operator [')'] =>
                  set { after with pending := outer.pending, document? := outer.document? }
                  pure (some (.substitution isQuoted script))
              | _ => unexpected t after true (some (inDoubleQuotes [')']))
          else if c = '\x7b' then
            skip
            some <$> brace fuel isQuoted
          else if isNameStart c then
            return some (.parameter isQuoted (← takeWhile isNameChar steps) .value)
          else if isSpecialName c then
            skip
            pure (some (.parameter isQuoted [c] .value))
          else pure none

def brace : Nat → Bool → Reading Piece
  | 0, _ => refuse .openBrace
  | fuel + 1, isQuoted => do
      let unknown : Reading Piece := do
        let _ ← operand fuel isQuoted false []
        pure (.parameter isQuoted [] .unknown)
      match ← parameterName with
      | none => unknown
      | some (name, true) =>
          if ← accept '\x7d' then pure (.parameter isQuoted name .length) else unknown
      | some (name, false) =>
          if ← accept '\x7d' then pure (.parameter isQuoted name .value)
          else
            let colon ← accept ':'
            match ← take with
            | none => unknown
            | some c =>
                match operationOfMark colon c with
                | some operation =>
                    let word ← operand fuel isQuoted false []
                    pure (.parameter isQuoted name (operation word.reverse))
                | none =>
                    if (c = '%' || c = '#') && !colon then
                      let longest ← accept c
                      let pattern := (← operand fuel false false []).reverse
                      pure (.parameter isQuoted name
                        (if c = '#' then .dropStart longest pattern
                          else .dropEnd longest pattern))
                    else if c = '\n' then
                      if ← endsDocument then refuse .openBrace else unknown
                    else unknown

/-- The word after the mark of an operation, up to the closing brace, its pieces newest first.
Between double quotes, further ones only make a brace an ordinary character. -/
def operand : Nat → Bool → Bool → Word → Reading Word
  | 0, _, _, w => pure w
  | fuel + 1, isQuoted, isInner, w => do
      let isOpen : Problem :=
        if isQuoted && (← get).document?.isNone then .openQuotes else .openBrace
      match ← peek with
      | none => refuse isOpen
      | some c =>
          skip
          if c = '\x7d' && !isInner then pure w
          else if c = '"' then
            if isQuoted then operand fuel isQuoted (!isInner) (addQuotes w)
            else
              let inside ← double fuel false (.quoted [] :: w)
              operand fuel isQuoted isInner (withoutQuotes w inside)
          else if c = '\'' && !isQuoted then
            let inside ← takeThrough '\'' .openQuotes steps []
            operand fuel isQuoted isInner (.quoted inside :: w)
          else if c = '\\' then
            match ← take with
            | none => refuse isOpen
            | some e =>
                if !isQuoted || isEscapable e || e == '"' || e == '\x7d' then
                  operand fuel isQuoted isInner (.quoted [e] :: w)
                else operand fuel isQuoted isInner (addQuoted e (addQuoted '\\' w))
          else if c = '$' then
            match ← dollar fuel isQuoted with
            | some piece => operand fuel isQuoted isInner (piece :: w)
            | none => operand fuel isQuoted isInner (addChar isQuoted c w)
          else if c = '\x60' then
            operand fuel isQuoted isInner ((← backQuote fuel isQuoted) :: w)
          else if c = '\n' then
            if ← endsDocument then refuse .openBrace
            else operand fuel isQuoted isInner (addChar isQuoted c w)
          else operand fuel isQuoted isInner (addChar isQuoted c w)
where
  /-- Notes that quotes were there, even with nothing between them. -/
  addQuotes (w : Word) : Word := .quoted [] :: w

/-- An arithmetic expression up to its two closing parentheses, its pieces newest first; `depth` is
the number of parentheses that are open inside. -/
def arithmetic : Nat → Nat → Word → Reading Word
  | 0, _, _ => refuse .openArithmetic
  | fuel + 1, depth, w => do
      match ← peek with
      | none => refuse .openArithmetic
      | some c =>
          skip
          if c = '(' then arithmetic fuel (depth + 1) (addQuoted c w)
          else if c = ')' then
            match depth with
            | depth + 1 => arithmetic fuel depth (addQuoted c w)
            | 0 =>
                if ← accept ')' then pure w else arithmetic fuel 0 (addQuoted c w)
          else if c = '\\' then
            match ← take with
            | none => refuse .openArithmetic
            | some e =>
                if isEscapable e || e == '"' then arithmetic fuel depth (addQuoted e w)
                else arithmetic fuel depth (addQuoted e (addQuoted '\\' w))
          else if c = '$' then
            match ← dollar fuel true with
            | some piece => arithmetic fuel depth (piece :: w)
            | none => arithmetic fuel depth (addQuoted c w)
          else if c = '\x60' then arithmetic fuel depth ((← backQuote fuel true) :: w)
          else if c = '\n' then
            if ← endsDocument then refuse .openArithmetic
            else arithmetic fuel depth (addQuoted c w)
          else arithmetic fuel depth (addQuoted c w)

def backQuote : Nat → Bool → Reading Piece
  | 0, _ => refuse .openBackQuote
  | fuel + 1, isQuoted => do
      let inside ← backQuoted isQuoted steps []
      let after ← get
      set { after with
        rest := inside, line := 1, pending := [], document? := none, expanding := [] }
      let script ← commands fuel true []
      let inner ← get
      set { after with documents := inner.documents, documentCount := inner.documentCount }
      pure (.substitution isQuoted script)

/-- Reads the documents that begin here. -/
def documents : Nat → Reading Unit
  | 0 => pure ()
  | fuel + 1 => do
      let s ← get
      match s.pending with
      | [] => pure ()
      | d :: later =>
          set { s with pending := [], document? := if d.isQuoted then none else some d }
          let content : Word ←
            if d.isQuoted then
              let t ← quotedDocument d
              pure [.quoted t]
            else if ← endsDocument then pure [.quoted []]
            else
              let pieces ← double fuel true [.quoted []]
              pure pieces.reverse
          modify fun s => { s with
            pending := later, document? := none, documents := (d.number, content) :: s.documents }
          documents fuel

/-- The next token, in which no other names are replaced. -/
def plainToken : Nat → Bool → Reading Token
  | 0, _ => pure .finish
  | fuel + 1, isMark => do
      skipGap steps
      match ← peek with
      | none =>
          documents fuel
          pure .finish
      | some c =>
          if c = '\n' then
            skip
            documents fuel
            pure .newline
          else if c = '&' || c = '|' || c = ';' then
            skip
            if ← accept c then pure (.operator [c, c]) else pure (.operator [c])
          else if c = '(' || c = ')' then
            skip
            pure (.operator [c])
          else if c = '<' || c = '>' then return .redirect none (← redirectOperator)
          else
            let next := (← get).rest[1]?
            if c.isDigit && (next == some '<' || next == some '>') then
              skip
              return .redirect (some (Text.digitValue c)) (← redirectOperator)
            else
              let (w, isQuoted) ← wordPieces fuel isMark [] false
              pure (.word w.reverse isQuoted)

/-- Puts the texts of other names in their place in front of the next token, if the token may be the
name of a command. -/
def replaceNames : Nat → Bool → Reading Unit
  | 0, _ => pure ()
  | fuel + 1, isCommand => do
      let before ← get
      if before.aliases.isEmpty then pure ()
      else
        skipGap steps
        let start ← get
        if isCommand || Source.isOpened before start then
          match ← plainToken fuel false with
          | .word w false =>
              let s ← get
              let name := ((bare? w).filter (!isOneOf reservedWords ·)).getD []
              match s.alias? name with
              | some value =>
                  set (s.expand name value)
                  replaceNames fuel true
              | none => set start
          | _ => set start
        else pure ()

/-- The next token. One that may be the name of a command may be an other name for it. -/
def token : Nat → Bool → Reading Token
  | 0, _ => pure .finish
  | fuel + 1, isCommand => do
      replaceNames fuel isCommand
      plainToken fuel false

/-- The next token and the text after it, from which nothing is taken. -/
def peekToken : Nat → Bool → Reading (Token × Source)
  | 0, _ => return (.finish, ← get)
  | fuel + 1, isCommand => do
      replaceNames fuel isCommand
      let before ← get
      let t ← plainToken fuel false
      let after ← get
      set before
      pure (t, after)

/-- Steps over line ends. -/
def skipLines : Nat → Reading Unit
  | 0 => pure ()
  | fuel + 1 => do
      match ← peekToken fuel true with
      | (.newline, after) =>
          set after
          skipLines fuel
      | _ => pure ()

/-- Takes a reserved word. -/
def expect : Nat → Text → Reading Unit
  | 0, _ => pure ()
  | fuel + 1, reserved => do
      let (t, after) ← peekToken fuel true
      if t.keyword? = some reserved then set after
      else unexpected t after true (some (inDoubleQuotes reserved))

/-- The word of a redirection whose operator has been taken. -/
def redirection : Nat → Option Nat → Text → Reading Redirection
  | 0, _, _ => refuse .badDescriptor
  | fuel + 1, descriptor?, operator => do
      let isDocument := (['<', '<'] : Text).isPrefixOf operator
      match ← (if isDocument then plainToken fuel true else token fuel false) with
      | .word w isQuoted =>
          let input := descriptor?.getD 0
          let output := descriptor?.getD 1
          if isDocument then
            return .text input (← announce (literalText w) (operator.length == 3) isQuoted)
          else match String.ofList operator with
            | ">" => pure (.file output .writing w)
            | ">|" => pure (.file output .replacing w)
            | ">>" => pure (.file output .appending w)
            | ">&" => pure (.duplicate output w)
            | "<&" => pure (.duplicate input w)
            | "<>" => pure (.file input .both w)
            | _ => pure (.file input .reading w)
      | t => unexpected t (← get) false none

/-- The redirections after a compound command. -/
def redirections : Nat → Reading (List Redirection)
  | 0 => pure []
  | fuel + 1 => do
      match ← peekToken fuel true with
      | (.redirect descriptor? operator, after) =>
          set after
          let r ← redirection fuel descriptor? operator
          return r :: (← redirections fuel)
      | _ => pure []

/-- A list of commands inside something. Unless it may be empty it holds at least one. -/
def commands : Nat → Bool → List Node → Reading Node
  | 0, _, nodes => pure (sequence nodes.reverse)
  | fuel + 1, mayEnd, nodes => do
      skipLines fuel
      let (t, after) ← peekToken fuel true
      if t matches .finish then
        set after
        pure (sequence nodes.reverse)
      else if mayEnd && t.isClosing then pure (sequence nodes.reverse)
      else
        let node ← andOr fuel
        let (t, after) ← peekToken fuel false
        match t with
        | .operator ['&'] =>
            set after
            commands fuel true (.background node :: nodes)
        | .operator [';'] =>
            set after
            commands fuel true (node :: nodes)
        | .newline => commands fuel true (node :: nodes)
        | _ => pure (sequence (node :: nodes).reverse)

/-- Pipelines joined by conditions. -/
def andOr : Nat → Reading Node
  | 0 => refuse (.unexpected "end of file" none)
  | fuel + 1 => do andOrRest fuel (← pipeline fuel)

def andOrRest : Nat → Node → Reading Node
  | 0, left => pure left
  | fuel + 1, left => do
      let (t, after) ← peekToken fuel false
      match t with
      | .operator ['&', '&'] =>
          set after
          skipLines fuel
          andOrRest fuel (.both left (← pipeline fuel))
      | .operator ['|', '|'] =>
          set after
          skipLines fuel
          andOrRest fuel (.either left (← pipeline fuel))
      | _ => pure left

def pipeline : Nat → Reading Node
  | 0 => refuse (.unexpected "end of file" none)
  | fuel + 1 => do
      let (t, after) ← peekToken fuel true
      let isNegated := t.keyword? == some ['!']
      if isNegated then set after
      let node ← match ← stages fuel with
        | [node] => pure node
        | nodes => pure (.pipeline nodes)
      pure (if isNegated then .negated node else node)

def stages : Nat → Reading (List Node)
  | 0 => refuse (.unexpected "end of file" none)
  | fuel + 1 => do
      let node ← command fuel
      let (t, after) ← peekToken fuel false
      match t with
      | .operator ['|'] =>
          set after
          skipLines fuel
          return node :: (← stages fuel)
      | _ => pure [node]

/-- The part of a branch after `if` or `elif`, its end included. -/
def branchTail : Nat → Reading Node
  | 0 => refuse (.unexpected "end of file" none)
  | fuel + 1 => do
      let condition ← commands fuel false []
      expect fuel "then"
      let yes ← commands fuel false []
      let (t, after) ← peekToken fuel true
      if t.keyword? = some ("elif" : Text) then
        set after
        return .branch condition yes (some (← branchTail fuel))
      else if t.keyword? = some ("else" : Text) then
        set after
        let no ← commands fuel false []
        expect fuel "fi"
        pure (.branch condition yes (some no))
      else
        expect fuel "fi"
        pure (.branch condition yes none)

/-- The items of a loop, up to the end of their line. -/
def items : Nat → Reading (List Word)
  | 0 => pure []
  | fuel + 1 => do
      match ← token fuel false with
      | .word w _ => return w :: (← items fuel)
      | .newline => pure []
      | .operator [';'] => pure []
      | t => unexpected t (← get) false none

/-- The part of a loop over items after `for`. -/
def eachTail : Nat → Reading Node
  | 0 => refuse (.unexpected "end of file" none)
  | fuel + 1 => do
      let variableToken ← token fuel false
      let line := (← get).line
      match variableToken with
      | .word w false =>
          match (bare? w).filter isName with
          | some name =>
              skipLines fuel
              let (t, after) ← peekToken fuel true
              let items? ←
                if t.keyword? = some ("in" : Text) then
                  set after
                  some <$> items fuel
                else
                  match t with
                  | .operator [';'] => set after
                  | _ => pure ()
                  pure none
              skipLines fuel
              expect fuel "do"
              let body ← commands fuel false []
              expect fuel "done"
              pure (.each line name items? body)
          | none => refuse .badLoopVariable
      | _ => refuse .badLoopVariable

/-- The patterns of an arm, up to the parenthesis behind them. -/
def patterns : Nat → Token → Reading (List Word)
  | 0, _ => pure []
  | fuel + 1, t => do
      let w := match t with
        | .word w _ => w
        | _ => []
      match ← token fuel false with
      | .operator ['|'] => return w :: (← patterns fuel (← token fuel false))
      | .operator [')'] => pure [w]
      | t => unexpected t (← get) false (some (inDoubleQuotes [')']))

/-- The arms of a choice, up to the word that ends it. -/
def arms : Nat → Reading (List (List Word × Node))
  | 0 => pure []
  | fuel + 1 => do
      skipLines fuel
      let t ← token fuel false
      if t.keyword? = some ("esac" : Text) then pure []
      else
        let first ← match t with
          | .operator ['('] => token fuel false
          | t => pure t
        let arm := (← patterns fuel first, ← commands fuel true [])
        skipLines fuel
        let (t, after) ← peekToken fuel true
        match t with
        | .operator [';', ';'] =>
            set after
            return arm :: (← arms fuel)
        | _ =>
            if t.keyword? = some ("esac" : Text) then
              set after
              pure [arm]
            else unexpected t after true (some (inDoubleQuotes [';', ';']))

/-- A command: a simple one, or one that is made of others, with its redirections. -/
def command : Nat → Reading Node
  | 0 => refuse (.unexpected "end of file" none)
  | fuel + 1 => do
      let (t, after) ← peekToken fuel true
      let line := after.line
      let redirected (body : Node) : Reading Node := do
        let rs ← redirections fuel
        pure (if rs.isEmpty then body else .redirected line body rs)
      match t, (t.keyword?).map String.ofList with
      | _, some "if" =>
          set after
          redirected (← branchTail fuel)
      | _, some "for" =>
          set after
          redirected (← eachTail fuel)
      | _, some "case" =>
          set after
          match ← token fuel false with
          | .word subject _ =>
              skipLines fuel
              expect fuel "in"
              redirected (.select line subject (← arms fuel))
          | t => unexpected t (← get) false (some "word")
      | _, some "\x7b" =>
          set after
          let body ← commands fuel false []
          expect fuel "\x7d"
          redirected body
      | _, some reserved =>
          if reserved = "while" ∨ reserved = "until" then
            set after
            let condition ← commands fuel false []
            expect fuel "do"
            let body ← commands fuel false []
            expect fuel "done"
            redirected (.loop (reserved == "until") condition body)
          else unexpected t after true none
      | .operator ['('], _ =>
          set after
          let body ← commands fuel false []
          let (t, after) ← peekToken fuel true
          match t with
          | .operator [')'] =>
              set after
              return .subshell line body (← redirections fuel)
          | _ => unexpected t after true (some (inDoubleQuotes [')']))
      | .word .., _ => simple fuel line .empty
      | .redirect .., _ => simple fuel line .empty
      | _, _ => unexpected t after true none

/-- A simple command or the definition of a function. -/
def simple : Nat → Nat → Parts → Reading Node
  | 0, line, p => pure (p.node line)
  | fuel + 1, line, p => do
      let before ← get
      match ← token fuel p.words.isEmpty with
      | .word w _ =>
          match assignment? w, p.words with
          | some a, [] => simple fuel line { p with assignments := a :: p.assignments }
          | _, _ => simple fuel line { p with words := w :: p.words }
      | .redirect descriptor? operator =>
          let r ← redirection fuel descriptor? operator
          simple fuel line { p with redirections := r :: p.redirections }
      | .operator ['('] =>
          match p.words, p.assignments, p.redirections with
          | [w], [], [] =>
              match ← token fuel false with
              | .operator [')'] =>
                  match (bare? w).filter mayNameFunction with
                  | some name =>
                      let line := (← get).line
                      skipLines fuel
                      return .define line name (← command fuel)
                  | none => refuse .badFunctionName
              | t => unexpected t (← get) false (some (inDoubleQuotes [')']))
          | _, _, _ =>
              set before
              pure (p.node line)
      | _ =>
          set before
          pure (p.node line)
where
  /-- Whether a function may have this name: not that of a command that steers the script. -/
  mayNameFunction (name : Text) : Bool :=
    isName name && !isOneOf ["break", "continue", "eval", "exec", "exit", "export", "local",
      "readonly", "return", "set", "shift", "times", "trap", "unset"] name

end

def lineCommands : Nat → List Node → Reading (List Node × Bool)
  | 0, nodes => pure (nodes.reverse, true)
  | fuel + 1, nodes => do
      let (t, after) ← peekToken fuel true
      match t with
      | .newline =>
          set after
          pure (nodes.reverse, false)
      | .finish =>
          set after
          pure (nodes.reverse, true)
      | _ =>
          let node ← andOr fuel
          let (t, after) ← peekToken fuel false
          match t with
          | .operator ['&'] =>
              set after
              lineCommands fuel (.background node :: nodes)
          | .operator [';'] =>
              set after
              lineCommands fuel (node :: nodes)
          | .newline => lineCommands fuel (node :: nodes)
          | .finish => lineCommands fuel (node :: nodes)
          | _ => unexpected t after true none

/-- Reads one line of a script: its commands, if there are any, and whether the script ends with
them. What follows is left. -/
def readLine (s : Source) : Except Refused ((Option Node × Bool) × Source) :=
  (do
    let (nodes, isEnd) ← lineCommands steps []
    pure (if nodes.isEmpty then none else some (sequence nodes), isEnd) : Reading _).run s

end Bytelink.Script
