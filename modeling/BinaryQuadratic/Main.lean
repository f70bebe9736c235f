import BinaryQuadratic.CommandLine
import Std.Time.Format
import Std.Time.Zoned

/-!
The program. It brings the files that a command looks at into memory, carries out the command
there, and writes what is new.
-/

namespace BinaryQuadratic.Main

def nodeOnDisk (path : PathName) : IO (Option FileNode) := do
  try
    return some (.file (← IO.FS.readFile path.render.render))
  catch
    | .noFileOrDirectory .. => return none
    | .inappropriateType .. => return some .directory
    | error => throw error

def loadPath (t : FileTree) (path : PathName) : IO FileTree := do
  let mut loaded := t
  for count in List.range path.components.length do
    let place := (path.components.take (count + 1)).foldl FileTree.step []
    if (loaded.node? place).isNone then
      if let some node ← nodeOnDisk (FileTree.pathOf place) then
        loaded := loaded.put place node
  return loaded

def writeNode (path : PathName) : FileNode → IO Unit
  | .directory => IO.FS.createDir path.render.render
  | .file text => IO.FS.writeFile path.render.render text

def run (words : List String) : IO UInt32 := do
  let arguments := words.map Text.ofString
  let stamp := (← Std.Time.PlainDateTime.now).format "uuuuMMdd_HHmmss"
  let withConfig ← (CommandLine.paths .empty stamp arguments).foldlM loadPath .empty
  let before ← (CommandLine.paths withConfig stamp arguments).foldlM loadPath withConfig
  let (after, response) := CommandLine.run before stamp arguments
  for (path, node) in after.newNodes before do
    writeNode path node
  IO.print response.output.render
  IO.eprint response.errors.render
  match response.outcome with
  | .ok code => return code.toUInt32
  | .error fault => do
    IO.eprintln s!"error: {fault.message.render}"
    return 1

end BinaryQuadratic.Main

def main (arguments : List String) : IO UInt32 := BinaryQuadratic.Main.run arguments
