import ScriptAnalysis.Include.Resolve

/-!
# Include links

Every include line whose target exists links its first argument to the target.

* `Include.links`: the links of a text.
* `Include.linkAt?`: the link under the cursor.
-/

namespace ScriptAnalysis

/-- An include argument with the script it names. -/
structure IncludeLink where
  /-- The place of the argument. -/
  span : Span
  /-- The script. -/
  target : Path
  deriving DecidableEq, Repr

namespace Include

/-- The link of a line of the file `path`. -/
def link? (fs : FileSystem) (vocabulary : Vocabulary) (path : Path) (code : CodeLine) :
    Option IncludeLink := do
  let target ← target? fs vocabulary path code
  let argument ← code.argument?
  return ⟨argument.span code.line, target⟩

/-- The links of the file `path` with content `text`. -/
def links (fs : FileSystem) (vocabulary : Vocabulary) (path : Path) (text : Text) :
    List IncludeLink :=
  (codeLines text).filterMap (link? fs vocabulary path)

/-- The link under column `column` of line number `line` of the file `path`, whose characters are
`raw`. -/
def linkAt? (fs : FileSystem) (vocabulary : Vocabulary) (path : Path) (raw : Text)
    (line column : Nat) : Option IncludeLink := do
  let code ← CodeLine.ofLine? line raw
  let argument ← code.argument?
  guard (argument.covers column)
  link? fs vocabulary path code

end Include

end ScriptAnalysis
