import Bytelink.CommandLine.Arguments
import Bytelink.Text.Lines

/-!
# Usage and messages

The text that explains the program, and the message of each error in its arguments. A wish for help
in the middle of a command is answered with the usage text itself.
-/
namespace Bytelink.CommandLine

def usage : Text :=
  Text.ofLines
    ["Usage: cbuild <command> [options]",
      "",
      "Commands:",
      "  build <source-dir> --class <name>  " ++
        "Compile every .c file in <source-dir> into one class",
      "",
      "Options:",
      "  --class <name>        Fully-qualified class name, e.g. HelloWorld or pkg/Multi",
      "  -o, --out-dir <dir>   Directory receiving the class file (default: <source-dir>)",
      "  --gcc <path>          Preprocessor binary (default: gcc)",
      "  --cc1 <path>          egcs-jvm compiler binary (default: cc1)",
      "  --assembler <path>    Bytecode assembler binary (default: jasmin)",
      "  --template <file>     Class template replacing the built-in one",
      "  --timeout <secs>      Kill any tool running longer than this",
      "  -j, --jobs <n>        Preprocess on up to <n> threads (default: 1)",
      "  -v, --verbose         Log build stages to stderr",
      "  -h, --help            Show this help message",
      "",
      "Examples:",
      "  cbuild build src --class HelloWorld",
      "  cbuild build src --class com/example/Multi -o classes -j 4"]

def ArgumentError.message : ArgumentError → Text
  | missingCommand => "missing command"
  | unknownCommand command => "unknown command: " ++ command
  | helpWanted => usage
  | unknownOption option => "unknown option: " ++ option
  | missingValue option => "missing value for " ++ option
  | invalidTimeout value => "invalid timeout: " ++ value
  | invalidJobs value => "invalid job count: " ++ value
  | multipleSources => "multiple source directories provided"
  | missingSource => "missing source directory"
  | missingClass => "missing --class"

end Bytelink.CommandLine
