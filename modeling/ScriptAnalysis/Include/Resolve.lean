import ScriptAnalysis.CodeLine
import ScriptAnalysis.FileSystem.LookUp
import ScriptAnalysis.Path.Normal
import ScriptAnalysis.Vocabulary.Basic

/-!
# Resolving an include

The first argument of an include command names another script, with or without quotes and relative
to the directory of the file it stands in. The named path is normalised by its spelling. If it has
no extension, the script extensions are tried after the path itself.

* `Include.candidates`: the paths an argument may mean, in the order they are tried.
* `Include.resolve`: the first candidate that is a regular file.
* `Include.target?`: the resolved target of a line of code.
-/

namespace ScriptAnalysis

namespace Include

/-- The paths that an include argument in the file `base` may mean. -/
def candidates (vocabulary : Vocabulary) (base : Path) (argument : Text) : List Path :=
  let target := Text.trim (stripQuotes argument)
  if target = [] then []
  else
    let path := ((base.parent?.getD ⟨[]⟩).join ⟨target⟩).normalize
    path ::
      match path.extension? with
      -- An empty extension, as in `a.`, counts too.
      | some _ => []
      | none => vocabulary.scriptExtensions.map fun ending => ⟨path.spelling ++ '.' :: ending⟩

/-- The script that an include argument in the file `base` names, if it exists. -/
def resolve (fs : FileSystem) (vocabulary : Vocabulary) (base : Path) (argument : Text) :
    Option Path :=
  (candidates vocabulary base argument).find? fs.isFile

/-- The script that a line of the file `base` includes. -/
def target? (fs : FileSystem) (vocabulary : Vocabulary) (base : Path) (code : CodeLine) :
    Option Path :=
  if vocabulary.isInclude code.commandName then
    match code.argument? with
    | some argument => resolve fs vocabulary base argument.text
    | none => none
  else none

/-- A resolved include is a regular file. -/
theorem isFile_of_resolve {fs : FileSystem} {vocabulary : Vocabulary} {base path : Path}
    {argument : Text} (h : resolve fs vocabulary base argument = some path) :
    fs.isFile path = true :=
  List.find?_some h

/-- The target of an include line is a regular file. -/
theorem isFile_of_target? {fs : FileSystem} {vocabulary : Vocabulary} {base path : Path}
    {code : CodeLine} (h : target? fs vocabulary base code = some path) :
    fs.isFile path = true := by
  unfold target? at h
  split at h
  · split at h
    · exact isFile_of_resolve h
    · cases h
  · cases h

end Include

end ScriptAnalysis
