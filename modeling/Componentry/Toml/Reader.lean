import Componentry.Toml.Scalar

/-!
# Reading TOML texts

A TOML text is a sequence of lines that each open a table or set a key. `Entries` is a document
under construction: a `Node` knows how its table came to be, because tables that a header or an
inline value defined must not be changed from elsewhere. `descend` follows a path of keys to a
table, and `assign`, `define` and `append` are the three kinds of line; all of them refuse to say
anything twice.

`readDocument` reads a whole text. It answers with a table, or with nothing for a text that is no
TOML. Keys of very many parts and values that lie very deep in each other are refused
(`nestingLimit`).
-/

namespace Componentry.Toml

/-! ## Documents under construction -/

/-- How a table came to be. -/
inductive Origin where
  /-- As a step of a header that names a table further down. -/
  | implied
  /-- As a step of a dotted key. -/
  | dotted
  /-- By a header of its own. -/
  | defined
  deriving DecidableEq, Repr

/-- A value under construction. Lists and inline tables are complete once they are read. -/
inductive Node where
  | leaf (value : Value)
  | table (origin : Origin) (entries : List (String × Node))
  /-- A list of tables, each one opened by a header. -/
  | tables (items : List (List (String × Node)))

/-- The entries of a table under construction, in key order. -/
abbrev Entries := List (String × Node)

mutual

/-- The value that was constructed. -/
def Node.value : Node → Value
  | .leaf value => value
  | .table _ entries => .table (Node.entryValues entries)
  | .tables items => .list (Node.tableValues items)

/-- The entries that were constructed. -/
def Node.entryValues : List (String × Node) → List (String × Value)
  | [] => []
  | (key, node) :: rest => (key, node.value) :: Node.entryValues rest

/-- The tables that were constructed. -/
def Node.tableValues : List (List (String × Node)) → List Value
  | [] => []
  | entries :: rest => .table (Node.entryValues entries) :: Node.tableValues rest

end

/-- Change the table that a path leads to. Missing tables on the way are made; a step into a list of
tables goes to its last one. Dotted keys must not step into tables that a header defined. -/
def descend (dotted : Bool) (change : Origin → Entries → Option Entries) :
    List String → Origin → Entries → Option Entries
  | [], origin, entries => change origin entries
  | key :: path, _, entries =>
    match Dict.lookup key entries with
    | none =>
      let origin : Origin := if dotted then .dotted else .implied
      (descend dotted change path origin []).map fun inner =>
        Dict.insertEntry key (.table origin inner) entries
    | some (.table origin inner) =>
      if dotted ∧ origin = .defined then none
      else (descend dotted change path origin inner).map fun inner =>
        Dict.insertEntry key (.table origin inner) entries
    | some (.tables items) =>
      match items.getLast? with
      | none => none
      | some last => (descend dotted change path .defined last).map fun last =>
        Dict.insertEntry key (.tables (items.dropLast ++ [last])) entries
    | some (.leaf _) => none

/-- Split a path into the way to a table and the key in it. -/
def splitPath : List String → Option (List String × String)
  | [] => none
  | [key] => some ([], key)
  | key :: path => (splitPath path).map fun (way, last) => (key :: way, last)

/-- Set a key of a table, the table of a dotted key being one that dotted keys made. -/
def assign (path : List String) (value : Value) (entries : Entries) : Option Entries :=
  match splitPath path with
  | none => none
  | some (way, key) =>
    descend true (fun origin entries =>
      if origin = .dotted ↔ way = [] then none
      else if (Dict.lookup key entries).isSome then none
      else some (Dict.insertEntry key (.leaf value) entries)) way .defined entries

/-- Open a table by its header: a new one, or one that so far was only implied. -/
def define (path : List String) (root : Entries) : Option Entries :=
  match splitPath path with
  | none => none
  | some (way, key) =>
    descend false (fun _ entries =>
      match Dict.lookup key entries with
      | none => some (Dict.insertEntry key (.table .defined []) entries)
      | some (.table .implied inner) => some (Dict.insertEntry key (.table .defined inner) entries)
      | _ => none) way .defined root

/-- Open a new table at the end of a list of tables. -/
def append (path : List String) (root : Entries) : Option Entries :=
  match splitPath path with
  | none => none
  | some (way, key) =>
    descend false (fun _ entries =>
      match Dict.lookup key entries with
      | none => some (Dict.insertEntry key (.tables [[]]) entries)
      | some (.tables items) => some (Dict.insertEntry key (.tables (items ++ [[]])) entries)
      | _ => none) way .defined root

/-! ## White space, comments and keys -/

/-- Drop blanks. -/
def skipBlanks (cs : List Char) : List Char := cs.dropWhile isBlank

/-- Drop blanks, line ends and comments; a comment must not hold control characters. -/
def skipSpace (inComment : Bool) : List Char → Option (List Char)
  | [] => some []
  | '\r' :: '\n' :: rest => skipSpace false rest
  | '\n' :: rest => skipSpace false rest
  | c :: rest =>
    if inComment then if isPlain c then skipSpace true rest else none
    else if c = ' ' ∨ c = '\t' then skipSpace false rest
    else if c = '#' then skipSpace true rest
    else some (c :: rest)

/-- What follows the end of a line, on which only blanks and a comment may still stand. -/
def lineEnd (cs : List Char) : Option (List Char) :=
  let left := match skipBlanks cs with
    | '#' :: rest => rest.dropWhile isPlain
    | rest => rest
  match left with
  | [] => some []
  | '\n' :: rest => some rest
  | '\r' :: '\n' :: rest => some rest
  | _ => none

/-- The characters of keys without quotation marks. -/
def isBareChar (c : Char) : Bool := c.isAlphanum || c == '_' || c == '-'

/-- A key without dots, and what follows. -/
def readSimpleKey : List Char → Option (String × List Char)
  | '"' :: rest => readLineText '"' rest
  | '\'' :: rest => readLineText '\'' rest
  | cs =>
    match cs.takeWhile isBareChar with
    | [] => none
    | key => some (String.ofList key, cs.dropWhile isBareChar)

/-- A key with or without dots, and what follows it and the blanks after it. -/
def readKey : Nat → List Char → Option (List String × List Char)
  | 0, _ => none
  | fuel + 1, cs =>
    match readSimpleKey (skipBlanks cs) with
    | none => none
    | some (key, rest) =>
      match skipBlanks rest with
      | '.' :: rest => (readKey fuel rest).map fun (path, rest) => (key :: path, rest)
      | rest => some ([key], rest)

/-- How many parts a key may have, and how deep lists and inline tables may lie in each other. -/
def nestingLimit : Nat := 80

/-- The path that a key writes, and what follows it and the blanks after it. -/
def readPath (cs : List Char) : Option (List String × List Char) :=
  match readKey (cs.length + 1) cs with
  | some (path, rest) => if path.length ≤ nestingLimit then some (path, rest) else none
  | none => none

/-- Drop what may stand before and after the sign of a pair: blanks, and between braces line ends
and comments too. -/
def skipGap (braced : Bool) (cs : List Char) : Option (List Char) :=
  if braced then skipSpace false cs else some (skipBlanks cs)

/-! ## Values -/

mutual

/-- A value, and what follows; it may hold `room` levels of lists and inline tables. -/
def readValue : Nat → Nat → List Char → Option (Value × List Char)
  | 0, _, _ => none
  | fuel + 1, room, cs =>
    match cs with
    | '"' :: '"' :: '"' :: rest => (readBlockText '"' rest).map fun (s, rest) => (.text s, rest)
    | '\'' :: '\'' :: '\'' :: rest => (readBlockText '\'' rest).map fun (s, rest) => (.text s, rest)
    | '"' :: rest => (readLineText '"' rest).map fun (s, rest) => (.text s, rest)
    | '\'' :: rest => (readLineText '\'' rest).map fun (s, rest) => (.text s, rest)
    | '[' :: rest => if room = 0 then none else readItems fuel (room - 1) [] rest
    | '\x7b' :: rest => if room = 0 then none else readPairs fuel (room - 1) [] rest
    | _ =>
      let (word, rest) := takeWord .point cs
      (readWord word).map fun value => (value, rest)

/-- The rest of a list after its opening bracket or a comma; `done` holds its items so far, last one
first. -/
def readItems : Nat → Nat → List Value → List Char → Option (Value × List Char)
  | 0, _, _, _ => none
  | fuel + 1, room, done, cs =>
    match skipSpace false cs with
    | some (']' :: rest) => some (.list done.reverse, rest)
    | some cs =>
      match readValue fuel room cs with
      | none => none
      | some (value, rest) =>
        match skipSpace false rest with
        | some (',' :: rest) => readItems fuel room (value :: done) rest
        | some (']' :: rest) => some (.list (value :: done).reverse, rest)
        | _ => none
    | none => none

/-- The rest of an inline table after its opening brace or a comma. -/
def readPairs : Nat → Nat → Entries → List Char → Option (Value × List Char)
  | 0, _, _, _ => none
  | fuel + 1, room, entries, cs =>
    match skipSpace false cs with
    | some ('\x7d' :: rest) => some ((Node.table .defined entries).value, rest)
    | some cs =>
      match readPair fuel room true cs with
      | none => none
      | some (path, value, rest) =>
        match assign path value entries, skipSpace false rest with
        | some entries, some (',' :: rest) => readPairs fuel room entries rest
        | some entries, some ('\x7d' :: rest) => some ((Node.table .defined entries).value, rest)
        | _, _ => none
    | none => none

/-- A key with its value, and what follows. -/
def readPair : Nat → Nat → Bool → List Char → Option (List String × Value × List Char)
  | 0, _, _, _ => none
  | fuel + 1, room, braced, cs =>
    match readPath cs with
    | none => none
    | some (path, rest) =>
      match skipGap braced rest with
      | some ('=' :: rest) =>
        match skipGap braced rest with
        | some rest => (readValue fuel room rest).map fun (value, rest) => (path, value, rest)
        | none => none
      | _ => none

end

/-! ## Documents -/

/-- The path of a header, and what follows its closing bracket. -/
def readHeader (cs : List Char) : Option (List String × List Char) :=
  match readPath cs with
  | some (path, ']' :: rest) => some (path, rest)
  | _ => none

/-- Read line by line. `header` is the path of the table that keys are set in. -/
def readLines : Nat → List String → Entries → List Char → Option Entries
  | 0, _, _, _ => none
  | fuel + 1, header, root, cs =>
    match skipBlanks cs with
    | [] => some root
    | '[' :: '[' :: rest =>
      match readHeader rest with
      | some (path, ']' :: rest) =>
        match append path root, lineEnd rest with
        | some root, some rest => readLines fuel path root rest
        | _, _ => none
      | _ => none
    | '[' :: rest =>
      match readHeader rest with
      | some (path, rest) =>
        match define path root, lineEnd rest with
        | some root, some rest => readLines fuel path root rest
        | _, _ => none
      | none => none
    | cs =>
      match lineEnd cs with
      | some rest => readLines fuel header root rest
      | none =>
        match readPair (2 * cs.length + 2) nestingLimit false cs with
        | none => none
        | some (path, value, rest) =>
          match descend false (fun _ entries => assign path value entries) header .defined root,
            lineEnd rest with
          | some root, some rest => readLines fuel header root rest
          | _, _ => none

/-- The table that a text writes, if the text is TOML. A byte order mark in front does not count. -/
def readDocument (s : String) : Option Value :=
  let cs := match s.toList with
    | '\ufeff' :: rest => rest
    | cs => cs
  (readLines (cs.length + 1) [] [] cs).map fun entries => (Node.table .defined entries).value

end Componentry.Toml
