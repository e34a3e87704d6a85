import ImportAtlas.Text.Split

/-!
# The settings file to start from

A new settings file lists the settings with their usual values, each commented out, so that it
changes nothing until a line of it is uncommented.

## Main definitions

* `Template.sections`: the settings of the file, with what they are for
* `Template.text`: the file
-/

namespace ImportAtlas.Template

/-- Some settings of the file that belong together. -/
structure Section where
  /-- What they are for. -/
  about : List String
  /-- The lines that set them. -/
  lines : List String

/-- What the file says before any setting. -/
def opening : List String :=
  ["depscope configuration",
    "",
    "Values here override the built-in defaults. DEPSCOPE_* environment",
    "variables override this file and command-line flags override both."]

/-- The settings of the file. -/
def sections : List Section :=
  [⟨["How raw imports are matched to repository files:",
      "\"relative-path\", \"package-root\" or \"custom-resolver\""],
      ["convention = \"relative-path\""]⟩,
    ⟨["Extensions tried when an import names a file without one"],
      ["extensions = [\".py\", \".rs\", \".js\", \".jsx\", \".ts\", \".tsx\", \".go\"]"]⟩,
    ⟨["File stems that make a directory importable"],
      ["index_files = [\"__init__\", \"index\", \"mod\"]"]⟩,
    ⟨["Directories searched by the package-root convention (\"\" is the repository root)"],
      ["source_roots = [\"\", \"src\"]"]⟩,
    ⟨["Import prefix rewrites used by the custom-resolver convention"],
      ["[aliases]", "\"@app/\" = \"src/app/\""]⟩,
    ⟨["Top-level module names treated as third-party"],
      ["external_modules = [\"os\", \"sys\", \"requests\", \"serde\"]"]⟩,
    ⟨["Globs on the raw import text marking imports performed at runtime"],
      ["dynamic_patterns = [\"*.plugins.*\"]"]⟩,
    ⟨["Files left out of the graph"],
      ["exclude_patterns = [\"tests/**\", \"**/*_test.py\"]"]⟩,
    ⟨["Refuse repositories with more files than this"],
      ["max_nodes = 50000"]⟩,
    ⟨["Output format: \"text\", \"json\", \"csv\" or \"dot\""],
      ["output_format = \"text\""]⟩,
    ⟨["Write output to a file instead of stdout"],
      ["output_file = \"depscope-report.json\""]⟩,
    ⟨["Compute whole-repository impact in parallel, and with how many threads"],
      ["parallel = true", "threads = 8"]⟩,
    ⟨[], ["use_colors = true", "show_progress = true"]⟩]

/-- A line as a comment. -/
def comment (line : String) : String :=
  if line.isEmpty then "#" else "# " ++ line

/-- Lines with a line feed after each. -/
def unlines (lines : List String) : String :=
  String.join (lines.map (· ++ "\n"))

/-- The lines of a section, all of them comments, after an empty line. -/
def Section.commented (part : Section) : List String :=
  "" :: (part.about ++ part.lines).map comment

/-- The file. -/
def text : String :=
  unlines (opening.map comment ++ sections.flatMap Section.commented)

end ImportAtlas.Template
