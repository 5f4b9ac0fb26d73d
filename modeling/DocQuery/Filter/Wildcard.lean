namespace DocQuery.Filter

def isMeta (c : Char) : Bool :=
  ['^', '$', '.', '*', '+', '(', ')', '[', ']', '\x7b', '\x7d', '|', '\\'].contains c

def wildcardChar (c : Char) : List Char :=
  if c = '%' then ['.', '*']
  else if c = '?' then ['.']
  else if isMeta c then ['\\', c]
  else [c]

def openWildcard : List Char → List Char × List Char
  | '%' :: s => (['.', '*'], s)
  | s => (['^'], s)

def closeWildcard (s : List Char) : List Char × List Char :=
  if s.getLast? = some '%' then (s.dropLast, ['.', '*']) else (s, ['$'])

def regexOfWildcard (pattern : String) : String :=
  let (opening, s) := openWildcard pattern.toList
  let (body, closing) := closeWildcard s
  String.ofList (opening ++ body.flatMap wildcardChar ++ closing)

end DocQuery.Filter
