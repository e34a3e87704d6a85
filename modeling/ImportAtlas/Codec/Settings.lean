import ImportAtlas.Codec.Record
import ImportAtlas.Settings.Basic

/-!
# Documents of settings

## Main definitions

* `Convention.codec`, `OutputFormat.codec`: the enumerations among the settings
* `ImportRules.codec`, `Settings.codec`, `Layer.codec`: settings
-/

namespace ImportAtlas

open Codec

/-- The documents of conventions. -/
def Convention.codec : Codec Convention := choice Convention.all Convention.name

/-- The documents of output formats. -/
def OutputFormat.codec : Codec OutputFormat := choice OutputFormat.all OutputFormat.name

/-- The documents of import rules. -/
def ImportRules.codec : Codec ImportRules :=
  record "ResolverConfig"
    (.cons (field "convention" Convention.codec) <|
      .cons (field "extensions" text.list) <|
      .cons (field "index_files" text.list) <|
      .cons (field "source_roots" text.list) <|
      .cons (field "aliases" text.dictionary) <|
      .cons (field "external_modules" text.list) <|
      .cons (field "dynamic_patterns" text.list) .nil)
    (fun (convention, extensions, indexFiles, sourceRoots, aliases, externalModules,
        dynamicPatterns, _) =>
      { convention, extensions, indexFiles, sourceRoots, aliases, externalModules,
        dynamicPatterns })
    (fun r => (r.convention, r.extensions, r.indexFiles, r.sourceRoots, r.aliases,
      r.externalModules, r.dynamicPatterns, ()))

/-- The documents of settings. -/
def Settings.codec : Codec Settings :=
  record "Settings"
    (.cons (field "resolver" ImportRules.codec) <|
      .cons (field "exclude_patterns" text.list) <|
      .cons (nullable "max_nodes" count) <|
      .cons (field "output_format" OutputFormat.codec) <|
      .cons (nullable "output_file" path) <|
      .cons (field "parallel" boolean) <|
      .cons (nullable "threads" count) <|
      .cons (field "quiet" boolean) <|
      .cons (field "verbose" boolean) <|
      .cons (field "use_colors" boolean) <|
      .cons (field "show_progress" boolean) .nil)
    (fun (rules, excludePatterns, maxNodes, outputFormat, outputFile, parallel, threads, quiet,
        verbose, useColors, showProgress, _) =>
      { rules, excludePatterns, maxNodes, outputFormat, outputFile, parallel, threads, quiet,
        verbose, useColors, showProgress })
    (fun s => (s.rules, s.excludePatterns, s.maxNodes, s.outputFormat, s.outputFile, s.parallel,
      s.threads, s.quiet, s.verbose, s.useColors, s.showProgress, ()))

/-- The documents of layers of settings. -/
def Layer.codec : Codec Layer :=
  record "PartialSettings"
    (.cons (nullable "convention" Convention.codec) <|
      .cons (nullable "extensions" text.list) <|
      .cons (nullable "index_files" text.list) <|
      .cons (nullable "source_roots" text.list) <|
      .cons (nullable "aliases" text.dictionary) <|
      .cons (nullable "external_modules" text.list) <|
      .cons (nullable "dynamic_patterns" text.list) <|
      .cons (nullable "exclude_patterns" text.list) <|
      .cons (nullable "max_nodes" count) <|
      .cons (nullable "output_format" OutputFormat.codec) <|
      .cons (nullable "output_file" path) <|
      .cons (nullable "parallel" boolean) <|
      .cons (nullable "threads" count) <|
      .cons (nullable "quiet" boolean) <|
      .cons (nullable "verbose" boolean) <|
      .cons (nullable "use_colors" boolean) <|
      .cons (nullable "show_progress" boolean) .nil)
    (fun (convention, extensions, indexFiles, sourceRoots, aliases, externalModules,
        dynamicPatterns, excludePatterns, maxNodes, outputFormat, outputFile, parallel, threads,
        quiet, verbose, useColors, showProgress, _) =>
      { convention, extensions, indexFiles, sourceRoots, aliases, externalModules,
        dynamicPatterns, excludePatterns, maxNodes, outputFormat, outputFile, parallel, threads,
        quiet, verbose, useColors, showProgress })
    (fun l => (l.convention, l.extensions, l.indexFiles, l.sourceRoots, l.aliases,
      l.externalModules, l.dynamicPatterns, l.excludePatterns, l.maxNodes, l.outputFormat,
      l.outputFile, l.parallel, l.threads, l.quiet, l.verbose, l.useColors, l.showProgress, ()))

end ImportAtlas
