import ImportAtlas.Codec.Settings
import ImportAtlas.Proofs.Codec.Record

/-!
# Documents of settings, read back

## Main definitions

* `ImportRules.shape`, `Settings.shape`, `Layer.shape`: the members of the documents, and for which
  values they may be missing
* `Settings.InRange`, `Layer.InRange`: the limits fit into 64 bits

## Main results

* `ImportRules.readsBack`, `Settings.readsBack`, `Layer.readsBack`
* `ImportRules.tolerates`, `Settings.tolerates`, `Layer.tolerates`
-/

namespace ImportAtlas

open Codec

theorem Convention.readsBack (convention : Convention) : codec.ReadsBack convention :=
  readsBack_choice (by cases convention <;> rfl)

theorem OutputFormat.readsBack (format : OutputFormat) : codec.ReadsBack format :=
  readsBack_choice (by cases format <;> rfl)

namespace ImportRules

/-- The document of import rules. -/
def shape : Shape :=
  .record [
    ⟨"convention", .leaf, none⟩,
    ⟨"extensions", .list .leaf, none⟩,
    ⟨"index_files", .list .leaf, none⟩,
    ⟨"source_roots", .list .leaf, none⟩,
    ⟨"aliases", .dictionary .leaf, none⟩,
    ⟨"external_modules", .list .leaf, none⟩,
    ⟨"dynamic_patterns", .list .leaf, none⟩]

theorem tolerates : codec.Tolerates shape :=
  tolerates_record
    ⟨follows_field "convention" (tolerates_leaf _),
      follows_field "extensions" (tolerates_list (tolerates_leaf _)),
      follows_field "index_files" (tolerates_list (tolerates_leaf _)),
      follows_field "source_roots" (tolerates_list (tolerates_leaf _)),
      follows_field "aliases" (tolerates_dictionary (tolerates_leaf _)),
      follows_field "external_modules" (tolerates_list (tolerates_leaf _)),
      follows_field "dynamic_patterns" (tolerates_list (tolerates_leaf _)), trivial⟩
    (by decide)

theorem readsBack (rules : ImportRules) : codec.ReadsBack rules :=
  readsBack_record (by decide) rfl
    ⟨Convention.readsBack _, readsBack_texts _, readsBack_texts _, readsBack_texts _,
      readsBack_dictionary fun _ _ => readsBack_text _, readsBack_texts _, readsBack_texts _,
      trivial⟩

end ImportRules

namespace Settings

/-- The document of settings. -/
def shape : Shape :=
  .record [
    ⟨"resolver", ImportRules.shape, none⟩,
    ⟨"exclude_patterns", .list .leaf, none⟩,
    ⟨"max_nodes", .leaf, some .null⟩,
    ⟨"output_format", .leaf, none⟩,
    ⟨"output_file", .leaf, some .null⟩,
    ⟨"parallel", .leaf, none⟩,
    ⟨"threads", .leaf, some .null⟩,
    ⟨"quiet", .leaf, none⟩,
    ⟨"verbose", .leaf, none⟩,
    ⟨"use_colors", .leaf, none⟩,
    ⟨"show_progress", .leaf, none⟩]

theorem tolerates : codec.Tolerates shape :=
  tolerates_record
    ⟨follows_field "resolver" ImportRules.tolerates,
      follows_field "exclude_patterns" (tolerates_list (tolerates_leaf _)),
      follows_nullable "max_nodes" (tolerates_leaf _),
      follows_field "output_format" (tolerates_leaf _),
      follows_nullable "output_file" (tolerates_leaf _),
      follows_field "parallel" (tolerates_leaf _), follows_nullable "threads" (tolerates_leaf _),
      follows_field "quiet" (tolerates_leaf _), follows_field "verbose" (tolerates_leaf _),
      follows_field "use_colors" (tolerates_leaf _),
      follows_field "show_progress" (tolerates_leaf _), trivial⟩
    (by decide)

/-- The limits fit into 64 bits. -/
structure InRange (s : Settings) : Prop where
  maxNodes : ∀ n ∈ s.maxNodes, n ≤ Text.maxCount
  threads : ∀ n ∈ s.threads, n ≤ Text.maxCount

theorem readsBack {s : Settings} (h : s.InRange) : codec.ReadsBack s :=
  readsBack_record (by decide) rfl
    ⟨s.rules.readsBack, readsBack_texts _,
      readsBack_optional_count h.maxNodes,
      OutputFormat.readsBack _,
      readsBack_optional (fun _ => Json.noConfusion) fun _ _ => readsBack_path _,
      readsBack_boolean _,
      readsBack_optional_count h.threads,
      readsBack_boolean _, readsBack_boolean _, readsBack_boolean _, readsBack_boolean _, trivial⟩

end Settings

namespace Layer

/-- The document of a layer of settings. -/
def shape : Shape :=
  .record [
    ⟨"convention", .leaf, some .null⟩,
    ⟨"extensions", .list .leaf, some .null⟩,
    ⟨"index_files", .list .leaf, some .null⟩,
    ⟨"source_roots", .list .leaf, some .null⟩,
    ⟨"aliases", .dictionary .leaf, some .null⟩,
    ⟨"external_modules", .list .leaf, some .null⟩,
    ⟨"dynamic_patterns", .list .leaf, some .null⟩,
    ⟨"exclude_patterns", .list .leaf, some .null⟩,
    ⟨"max_nodes", .leaf, some .null⟩,
    ⟨"output_format", .leaf, some .null⟩,
    ⟨"output_file", .leaf, some .null⟩,
    ⟨"parallel", .leaf, some .null⟩,
    ⟨"threads", .leaf, some .null⟩,
    ⟨"quiet", .leaf, some .null⟩,
    ⟨"verbose", .leaf, some .null⟩,
    ⟨"use_colors", .leaf, some .null⟩,
    ⟨"show_progress", .leaf, some .null⟩]

theorem tolerates : codec.Tolerates shape :=
  tolerates_record
    ⟨follows_nullable "convention" (tolerates_leaf _),
      follows_nullable "extensions" (tolerates_list (tolerates_leaf _)),
      follows_nullable "index_files" (tolerates_list (tolerates_leaf _)),
      follows_nullable "source_roots" (tolerates_list (tolerates_leaf _)),
      follows_nullable "aliases" (tolerates_dictionary (tolerates_leaf _)),
      follows_nullable "external_modules" (tolerates_list (tolerates_leaf _)),
      follows_nullable "dynamic_patterns" (tolerates_list (tolerates_leaf _)),
      follows_nullable "exclude_patterns" (tolerates_list (tolerates_leaf _)),
      follows_nullable "max_nodes" (tolerates_leaf _),
      follows_nullable "output_format" (tolerates_leaf _),
      follows_nullable "output_file" (tolerates_leaf _),
      follows_nullable "parallel" (tolerates_leaf _),
      follows_nullable "threads" (tolerates_leaf _), follows_nullable "quiet" (tolerates_leaf _),
      follows_nullable "verbose" (tolerates_leaf _),
      follows_nullable "use_colors" (tolerates_leaf _),
      follows_nullable "show_progress" (tolerates_leaf _), trivial⟩
    (by decide)

/-- The limits fit into 64 bits. -/
structure InRange (l : Layer) : Prop where
  maxNodes : ∀ n ∈ l.maxNodes, n ≤ Text.maxCount
  threads : ∀ n ∈ l.threads, n ≤ Text.maxCount

theorem readsBack {l : Layer} (h : l.InRange) : codec.ReadsBack l := by
  have htexts : ∀ values : Option (List String), text.list.optional.ReadsBack values := fun _ =>
    readsBack_optional (fun _ => Json.noConfusion) fun _ _ => readsBack_texts _
  have hboolean : ∀ value : Option Bool, boolean.optional.ReadsBack value := fun _ =>
    readsBack_optional (fun _ => Json.noConfusion) fun _ _ => readsBack_boolean _
  exact readsBack_record (by decide) rfl
    ⟨readsBack_optional (fun _ => Json.noConfusion) fun _ _ => Convention.readsBack _,
      htexts _, htexts _, htexts _,
      readsBack_optional (fun _ => Json.noConfusion) fun _ _ =>
        readsBack_dictionary fun _ _ => readsBack_text _,
      htexts _, htexts _, htexts _,
      readsBack_optional_count h.maxNodes,
      readsBack_optional (fun _ => Json.noConfusion) fun _ _ => OutputFormat.readsBack _,
      readsBack_optional (fun _ => Json.noConfusion) fun _ _ => readsBack_path _,
      hboolean _,
      readsBack_optional_count h.threads,
      hboolean _, hboolean _, hboolean _, hboolean _, trivial⟩

end Layer

end ImportAtlas
