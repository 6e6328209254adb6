/-!
# Texts about the program

The help text and the version.
-/

set_option autoImplicit false

namespace PipeTrace.CommandLine

def versionText : String := "kanata-diff 0.1.0\n"

def helpLines : List String :=
  ["Compare two Kanata logs and find the first instruction with different stage timings",
   "",
   "Usage: kanata-diff [OPTIONS] <FILE1> <FILE2>",
   "",
   "Arguments:",
   "  <FILE1>  First Kanata log file",
   "  <FILE2>  Second Kanata log file",
   "",
   "Options:",
   "  -s, --stages <STAGES>  Stages to check (comma-separated, may be repeated) "
     ++ "[default: IF,WB,RN,EX,PNR,CO]",
   "      --color <COLOR>    When to style the report [default: auto] "
     ++ "[possible values: auto, always, never]",
   "      --metrics          Show metrics summary after the comparison",
   "  -v, --verbose          Enable verbose output (sets RUST_LOG=debug)",
   "  -h, --help             Print help",
   "  -V, --version          Print version",
   "",
   "Examples:",
   "  kanata-diff file1.kanata file2.kanata",
   "  kanata-diff --stages IF,EX,WB file1.kanata file2.kanata",
   "  kanata-diff -s IF -s EX file1.kanata file2.kanata"]

def helpText : String := String.join (helpLines.map (· ++ "\n"))

end PipeTrace.CommandLine
