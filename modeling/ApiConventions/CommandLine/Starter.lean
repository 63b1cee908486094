/-!
# ApiConventions.CommandLine.Starter

The configuration file to start from, with the defaults of the most important settings.
-/

namespace ApiConventions
namespace CommandLine

def starterLines : List String :=
  ["# api-lint configuration",
   "",
   "# Rule preset: \"recommended\" (default), \"strict\" or \"minimal\"",
   "preset = \"recommended\"",
   "",
   "# Lowest severity that fails the run: \"info\", \"warning\" or \"error\"",
   "fail_on = \"error\"",
   "",
   "[analyzer]",
   "# Directory holding the package dumps (default: current directory)",
   "# root = \"./dumps\"",
   "",
   "# Glob patterns to exclude from analysis",
   "exclude = [",
   "    \"**/vendor/**\",",
   "    \"**/testdata/**\",",
   "]",
   "",
   "# Respect .gitignore files",
   "respect_gitignore = true",
   "",
   "# Rule configurations",
   "# Each rule can be enabled/disabled and have its severity overridden",
   "",
   "[rules.nomaps]",
   "policy = \"AllowStringToStringMaps\"",
   "# allowed_field_names = [\"Labels\", \"Annotations\"]",
   "",
   "[rules.optionalfields]",
   "pointers = \x7b preference = \"Always\" \x7d",
   "omitempty = \x7b policy = \"SuggestFix\" \x7d",
   "",
   "[rules.requiredfields]",
   "omitempty = \x7b policy = \"SuggestFix\" \x7d",
   "",
   "[rules.ssatags]",
   "list_type_set_usage = \"Warn\"",
   "",
   "# [rules.minlength]",
   "# enabled = true",
   "# severity = \"warning\"",
   "",
   "# [rules.jsontags]",
   "# json_tag_regex = \"^[a-z][a-z0-9]*(?:[A-Z][a-z0-9]*)*$\""]

def starterConfig : String :=
  String.join (starterLines.map (· ++ "\n"))

end CommandLine
end ApiConventions
