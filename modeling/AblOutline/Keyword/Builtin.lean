/-
The keywords that a directory knows when no keyword list is given.
-/
namespace AblOutline.Keyword

/-- Keywords of the language, in alphabetical order but for the last. -/
def builtin : List String :=
  ["ABSOLUTE", "ACCUMULATE", "ADD-INTERVAL", "AND", "ANYWHERE", "APPLY", "AS", "ASC", "ASSIGN",
   "AVAILABLE", "BEGINS", "BREAK", "BUFFER", "BUFFER-COPY", "BY", "CAN-FIND", "CASE", "CATCH",
   "CHARACTER", "CHR", "CLASS", "CLOSE", "COMPILE", "CONNECT", "CONSTRUCTOR", "COUNT-OF",
   "CREATE", "CURRENT-CHANGED", "DATE", "DATETIME", "DECIMAL", "DEFINE", "DEFINED", "DELETE",
   "DESTRUCTOR", "DISPLAY", "DO", "DYNAMIC-FUNCTION", "EACH", "ELSE", "EMPTY", "END", "ENTRY",
   "ENUM", "EQ", "ERROR", "EXCLUSIVE-LOCK", "EXTENT", "FALSE", "FIELD", "FIELDS", "FINALLY",
   "FIND", "FIRST", "FOR", "FORMAT", "FORWARD", "FRAME", "FUNCTION", "GE", "GET", "GLOBAL", "GT",
   "HANDLE", "IF", "IMPLEMENTS", "IN", "INDEX", "INHERITS", "INITIAL", "INPUT", "INPUT-OUTPUT",
   "INT64", "INTEGER", "INTERFACE", "IS", "LAST", "LE", "LEAVE", "LENGTH", "LIKE", "LOGICAL",
   "LONGCHAR", "LOOKUP", "LT", "MATCHES", "MAXIMUM", "MEMPTR", "MESSAGE", "METHOD", "MINIMUM",
   "MODULO", "NE", "NEW", "NEXT", "NO-ERROR", "NO-LOCK", "NO-UNDO", "NOT", "NOW", "NUM-ENTRIES",
   "OF", "ON", "OR", "OTHERWISE", "OUTPUT", "OVERRIDE", "PARAMETER", "PERSISTENT", "PRIVATE",
   "PROCEDURE", "PROPERTY", "PROTECTED", "PUBLIC", "PUBLISH", "QUERY", "QUIT", "RECID", "RELEASE",
   "REPEAT", "REPLACE", "RETURN", "RETURNS", "ROWID", "RUN", "SCOPED-DEFINE", "SEARCH", "SELF",
   "SET", "SHARE-LOCK", "SHARED", "SKIP", "STATIC", "STOP", "STREAM", "STRING", "SUBSCRIBE",
   "SUBSTITUTE", "SUBSTRING", "SUPER", "TABLE", "TEMP-TABLE", "THEN", "THIS-OBJECT",
   "THIS-PROCEDURE", "TO", "TODAY", "TRANSACTION", "TRIGGER", "TRIM", "TRUE", "UNDO", "UNKNOWN",
   "UPDATE", "USE-INDEX", "USING", "VALID-HANDLE", "VALUE", "VAR", "VARIABLE", "VIEW", "VOID",
   "WHEN", "WHERE", "WHILE", "WITH", "YES", "NO"]

end AblOutline.Keyword
