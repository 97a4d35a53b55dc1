import EmbedQuery.Cli.Run

/-!
# The program

Reads the catalog file if the command needs it, runs the command, and passes on its outputs and its
exit code. The environment variable `OXIDE_EMBED_CATALOG` may name the catalog.
-/

open EmbedQuery EmbedQuery.Cli

/-- What reading a file comes to. -/
def readCatalogFile (path : String) : IO (Except ReadFailure String) := do
  if path.isEmpty then return .error .notFound
  try
    return Folder.decode (← IO.FS.readBinFile path)
  catch
    | .noFileOrDirectory .. => return .error .notFound
    | .inappropriateType .. => return .error .isDirectory
    | error => return .error (.other (toString error))

/-- Runs a command line. -/
def main (arguments : List String) : IO UInt32 := do
  match Invocation.ofArguments arguments (← IO.getEnv "OXIDE_EMBED_CATALOG") with
  | .error error =>
    IO.eprintln s!"error: {error.message}"
    return 2
  | .ok invocation =>
    let content ←
      match invocation.catalogPath? with
      | some path => readCatalogFile path
      | none => pure (.error .notFound)
    let outcome := invocation.run fun _ => content
    IO.print outcome.stdout
    IO.eprint outcome.stderr
    return outcome.code.toUInt32
