import SourceLint.CommandLine.Places

/-! # The program

Takes a picture of what the command line looks at, runs it over that picture, and carries
out what comes of it.
-/

namespace SourceLint.Main

open CommandLine

/-- What stands at a path on the disk, with the bytes of those files that are asked for. What
cannot be looked at is left out. -/
partial def picture (asked : Path → Bool) (path : Path) : IO (Option FileTree) := do
  let place := System.mkFilePath [path.text]
  try
    if ← place.isDir then
      let entries ← (← place.readDir).toList.filterMapM fun entry => do
        return (← picture asked (path.child entry.fileName)).map (entry.fileName, ·)
      return some (.directory entries)
    else if ← place.pathExists then
      let bytes ← if asked path then IO.FS.readBinFile place else pure .empty
      return some (.file bytes)
    else return none
  catch _ => return none

/-- The variables that matter. -/
def settings : IO (List (String × String)) :=
  ["PODLINT_CONFIG", "PODLINT_CONFIG_DIR", "HOME"].filterMapM fun name => do
    return (← IO.getEnv name).map (name, ·)

/-- The file tree of all that a command line looks at. -/
def treeFor (e : Environment) (words : List String) : IO FileTree :=
  match Invocation.read? e words with
  | none => return .directory []
  | some i =>
    let start := FileTree.put (.directory []) e.directory (.directory [])
    (i.places e).foldlM (fun tree path => do
      match ← picture (i.mayRead e) path with
      | some entry => return tree.put path entry
      | none => return tree) start

end SourceLint.Main

open SourceLint in
/-- Run the program with the words of its command line. -/
def main (words : List String) : IO UInt32 := do
  let e : CommandLine.Environment := ⟨⟨(← IO.currentDir).toString⟩, ← Main.settings⟩
  let outcome := CommandLine.run e (← Main.treeFor e words) words
  if let some (path, content) := outcome.written then
    IO.FS.writeFile (System.mkFilePath [path.text]) content
  IO.print outcome.output
  for remark in outcome.remarks do
    IO.eprintln (remark.render Excerpt.render)
  return outcome.exit.toUInt32
