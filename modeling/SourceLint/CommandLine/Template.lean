/-! # A configuration to start from

It sets every default once, so that a reader sees what there is to set.
-/

namespace SourceLint.CommandLine

/-- The lines of a configuration to start from. -/
def templateLines : List String := [
  "<?xml version=\"1.0\" encoding=\"UTF-8\"?>",
  "<!-- podlint configuration -->",
  "<config failOn=\"error\">",
  "  <Analyzer>",
  "    <!-- Glob patterns to exclude from analysis -->",
  "    <Exclude pattern=\"**/target/**\"/>",
  "    <Exclude pattern=\"**/generated/**\"/>",
  "  </Analyzer>",
  "",
  "  <!-- Tabs count as tabWidth columns -->",
  "  <LongLine maxLineLength=\"120\" tabWidth=\"4\" severity=\"warning\"/>",
  "",
  "  <UnusedFunction enabled=\"true\" includePublic=\"false\">",
  "    <!-- Function names never reported -->",
  "    <!-- <Exclude name=\"handle_*\"/> -->",
  "  </UnusedFunction>",
  "</config>"]

/-- A configuration to start from. -/
def template : String :=
  String.join (templateLines.map (· ++ "\n"))

end SourceLint.CommandLine
