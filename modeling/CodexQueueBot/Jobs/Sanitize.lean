import CodexQueueBot.Config.Target

/-!
# Error texts shown to users

`sanitizeTargetError` prepares the error of a runner call for snapshots and logs: it trims the text,
replaces every absolute URL by `[URL]`, replaces the target's API key, its query-escaped form and
the name of its key variable by `[REDACTED]`, and cuts the result to 600 runes.

`absoluteURLPattern` is the regular expression `(?i)\b(?:https?|wss?)://[^\s]+`. It is matched here
by hand: the four schemes in the order in which the expression prefers them, letters up to case with
the long s that Unicode folds to `s`, the ASCII word boundary, and the ASCII white space of `\s`.
-/

set_option autoImplicit false
set_option relaxedAutoImplicit false

namespace CodexQueueBot.Jobs

open Go.Strings

/-! ### The URL pattern -/

/-- A letter of the pattern matches up to case; `s` also matches the long s. -/
def foldsTo (letter c : Char) : Bool :=
  c == letter || c.toNat + 32 == letter.toNat || (letter == 's' && c.toNat == 0x17F)

/-- The ASCII word characters of `\b`. -/
def isWordChar (c : Char) : Bool :=
  let n := c.toNat
  (48 ≤ n && n ≤ 57) || (65 ≤ n && n ≤ 90) || (97 ≤ n && n ≤ 122) || n == 95

/-- The white space of `\s`. -/
def isPatternSpace (c : Char) : Bool :=
  c == '\t' || c == '\n' || c.toNat == 0x0C || c == '\r' || c == ' '

/-- The text after a leading scheme, compared up to case. -/
def dropFolded : List Char → List Char → Option (List Char)
  | [], chars => some chars
  | _ :: _, [] => none
  | letter :: letters, c :: chars => if foldsTo letter c then dropFolded letters chars else none

/-- The text after `scheme://` and at least one character that is not white space. -/
def dropSchemeURL (scheme : String) (chars : List Char) : Option (List Char) := do
  let afterScheme ← dropFolded scheme.toList chars
  let body ← dropPattern "://".toList afterScheme
  match body with
  | c :: rest => if isPatternSpace c then none else some (rest.dropWhile (!isPatternSpace ·))
  | [] => none

/-- The text after a leading match of `absoluteURLPattern`, without its word boundary. -/
def dropAbsoluteURL (chars : List Char) : Option (List Char) :=
  ["https", "http", "wss", "ws"].findSome? fun scheme ↦ dropSchemeURL scheme chars

/-- `absoluteURLPattern.ReplaceAllString(value, "[URL]")` on code points. The first argument says
whether the preceding character is a word character; the fuel is the length of the text. -/
def replaceURLChars : Bool → Nat → List Char → List Char
  | _, 0, chars => chars
  | _, _ + 1, [] => []
  | afterWord, fuel + 1, c :: rest =>
    match if afterWord then none else dropAbsoluteURL (c :: rest) with
    | some remaining => "[URL]".toList ++ replaceURLChars true fuel remaining
    | none => c :: replaceURLChars (isWordChar c) fuel rest

/-- `absoluteURLPattern.ReplaceAllString(value, "[URL]")`. -/
def replaceURLs (value : String) : String :=
  String.ofList (replaceURLChars false value.toList.length value.toList)

/-! ### Sanitizing -/

/-- `truncate`: the trimmed text, cut to a number of runes and marked when it was longer. -/
def truncate (value : String) (maximum : Nat) : String :=
  let trimmed := trimSpace value
  if trimmed.toList.length ≤ maximum then trimmed
  else String.ofList (trimmed.toList.take maximum) ++ "…"

/-- One pass of the redaction loop: an empty secret is skipped. -/
def redactSecret (value secret : String) : String :=
  if secret ≠ "" then replaceAll value secret "[REDACTED]" else value

/-- `sanitizeTargetError`. -/
def sanitizeTargetError (target : Target) (value : String) : String :=
  truncate
    ([target.apiKey, Go.queryEscape target.apiKey, target.apiKeyEnv].foldl redactSecret
      (replaceURLs (trimSpace value))) 600

example : replaceURLs "get HTTPS://a.b/c?d failed, xhttp://e kept" =
    "get [URL] failed, xhttp://e kept" := by decide

end CodexQueueBot.Jobs
