import X86Codec.CommandLine
/-!
The table generator as a program: reads the listing named on the command line and writes the
four texts to the files named after it.
-/

open X86Codec

/-- run the table generator -/
def main (args : List String) : IO UInt32 := do
  match CommandLine.parse (fun _ => true) args with
  | .error f =>
    IO.eprintln ("usage: [--32] [--64] [--with-undoc] table decode_mnems decode_table " ++
      "encode_mnems encode_table")
    match f with
    | .usage s => return s.toUInt32
    | _ => return 2
  | .ok o =>
    match o.files with
    | [listing, decodeMnems, decodeTable, encodeMnems, encodeTable] =>
      let text ← IO.FS.readFile listing
      match CommandLine.generate o text with
      | .error f =>
        IO.eprintln f.message
        return 1
      | .ok out =>
        IO.print out.report
        IO.FS.writeFile decodeMnems out.decodeMnemonics
        IO.FS.writeFile decodeTable out.decodeTable
        IO.FS.writeFile encodeMnems out.encodeMnemonics
        IO.FS.writeFile encodeTable out.encodeTable
        return 0
    | _ => return 2
