import PlainSchema.Generator.Response

/-!
# The generator as a program

The program reads a request from standard input and writes the response to standard output.
Problems of the schema and of the parameter are part of the response; when there is no response,
nothing is written and the exit code is one.
-/

open PlainSchema

def main : IO UInt32 := do
  let input ← (← IO.getStdin).readBinToEnd
  match generateFromBytes input.toList with
  | .ok response =>
    if let some error := response.error then IO.eprintln ("generation failed: " ++ error)
    (← IO.getStdout).write ⟨response.encode.toArray⟩
    return 0
  | .error error =>
    IO.eprintln ("error: " ++ error.message)
    return 1
