import DiagnosticServer.Parse.Adapter
import DiagnosticServer.Proofs.FileSystem.Ways
import DiagnosticServer.Proofs.Layout.Project

/-!
# Which identities are absolute

The identity that a path has is the path of a place on the disk, or else the normal form of the path
(`Identity.ofPath_cases`). So it is absolute exactly if the path is, or if the path leads somewhere;
then it holds names only, it has a URI, and every source root that its file reveals is absolute too.
A URI may name a relative path. If that leads nowhere, the identity is relative, has no URI, and
reveals relative source roots, of which the empty one holds every path.
-/

namespace DiagnosticServer

open FileSystem

namespace Identity

variable {files : FileSystem} {path : Path} {uri : Uri} {id : Identity}

/-- The identity of a path is the path of the place that its normal form leads to, or else the
normal form. -/
theorem ofPath_cases (files : FileSystem) (path : Path) :
    (∃ place, Solid files place ∧ files.follow withinLimit path.normalize = .ok place ∧
      ofPath files path = ⟨pathOf place⟩) ∨
    ∃ cause, files.canonicalize path.normalize = .error cause ∧
      ofPath files path = ⟨path.normalize⟩ := by
  unfold ofPath
  cases found : files.canonicalize path.normalize with
  | error cause => exact .inr ⟨cause, rfl, rfl⟩
  | ok canonical =>
    obtain ⟨place, followed, rfl⟩ := canonicalize_eq_ok_iff.1 found
    exact .inl ⟨place, solid_of_follow followed, followed, rfl⟩

/-- The identity of a path is absolute if and only if the path is, or its normal form leads
somewhere. -/
theorem isAbsolute_ofPath_iff : (ofPath files path).path.isAbsolute = true ↔
    path.isAbsolute = true ∨ ∃ canonical, files.canonicalize path.normalize = .ok canonical := by
  rcases ofPath_cases files path with ⟨place, solid, followed, same⟩ | ⟨cause, refused, same⟩
  · rw [same]
    exact ⟨fun _ => .inr ⟨_, canonicalize_eq_ok_iff.2 ⟨place, followed, rfl⟩⟩,
      fun _ => Path.isAbsolute_pathOf solid.names⟩
  · rw [same, refused]
    simp [Path.isAbsolute_normalize]

/-- An absolute identity is the path of a location. -/
theorem exists_location (absolute : (ofPath files path).path.isAbsolute = true) :
    ∃ location : Location, (∀ name ∈ location, isName name = true) ∧
      (ofPath files path).path = pathOf location := by
  rcases ofPath_cases files path with ⟨place, solid, -, same⟩ | ⟨cause, -, same⟩
  · exact ⟨place, solid.names, by rw [same]⟩
  · rw [same, Path.isAbsolute_normalize] at absolute
    obtain ⟨climbed, names⟩ := Path.normalize_of_isAbsolute absolute
    exact ⟨_, names, by rw [same, climbed]⟩

/-- An absolute identity has no component but the root and names. -/
theorem components_of_isAbsolute (absolute : (ofPath files path).path.isAbsolute = true) :
    ∀ c ∈ (ofPath files path).path.components, c ≠ .current ∧ c ≠ .parent := by
  obtain ⟨location, names, same⟩ := exists_location absolute
  rw [same, Path.components_pathOf names]
  refine List.forall_mem_cons.2 ⟨by decide, fun c among => ?_⟩
  obtain ⟨name, -, rfl⟩ := List.mem_map.1 among
  exact ⟨nofun, nofun⟩

/-- The URI of an absolute identity is that of its path, and a relative identity has none. -/
theorem toUri?_ofPath (files : FileSystem) (path : Path) : (ofPath files path).toUri? files =
    if (ofPath files path).path.isAbsolute = true then
      some (Uri.ofAbsolutePath (ofPath files path).path)
    else none := by
  unfold toUri? Uri.ofFilePath?
  split
  · rfl
  · rename_i relative
    rcases ofPath_cases files path with ⟨place, solid, -, same⟩ | ⟨cause, refused, same⟩
    · rw [same] at relative
      exact absurd (Path.isAbsolute_pathOf solid.names) relative
    · rw [same, refused]
      rfl

/-- A URI names a file by the path that it spells. -/
theorem ofUri_eq_ok_iff : ofUri files uri = .ok id ↔
    uri.isFile = true ∧ ∃ path, uri.toFilePath? = some path ∧ ofPath files path = id := by
  unfold ofUri
  cases uri.isFile with
  | false => simp
  | true =>
    cases uri.toFilePath? with
    | none => simp
    | some path => simp

end Identity

/-! ## Source roots of a file -/

namespace Java

/-- The roots that the parser finds in a file are those that its package implies. -/
theorem sourceRoot?_of_accepted {grammar : Grammar} {path : Path} {text : String}
    {known : SourceRoots} {unit : CompilationUnit} {roots : List Path}
    (accepted : parser grammar path text known = .accepted unit roots) :
    ∀ root ∈ roots, ∃ package, Layout.sourceRoot? path package = some root := by
  obtain ⟨-, ⟨package, -, -, -, -, rfl⟩ | ⟨-, -, -, rfl⟩⟩ := parser_eq_accepted_iff.1 accepted
  · exact fun root among => ⟨package, Option.mem_toList.1 among⟩
  · exact List.forall_mem_nil _

/-- A file and the roots that become known by parsing it start at the root of the disk together. -/
theorem isAbsolute_of_mem_file {grammar : Grammar} {files : FileSystem} {known : SourceRoots}
    {id : Identity} {overlay : Option String} {root : Path}
    (among : root ∈ (Parse.file (parser grammar) files known id overlay).2) :
    root ∈ known ∨ root.isAbsolute = id.path.isAbsolute := by
  unfold Parse.file at among
  split at among
  · exact .inl among
  · rename_i call _
    refine (SourceRoots.mem_of_mem_registerAll among).imp_right fun revealed => ?_
    -- Only a file that is accepted reveals roots.
    unfold Parse.run at revealed
    cases verdict : parser grammar id.path call.text call.roots with
    | accepted unit roots =>
      rw [verdict] at revealed
      obtain ⟨package, implied⟩ := sourceRoot?_of_accepted verdict root revealed
      exact Layout.isAbsolute_sourceRoot? implied
    | rejected problems =>
      rw [verdict] at revealed
      cases problems <;> cases revealed
    | crashed reason =>
      rw [verdict] at revealed
      cases revealed

end Java

/-! ## Identities of URIs -/

namespace Identity

variable {files : FileSystem} {uri : Uri} {id : Identity}

/-- A file that a URI names has an absolute identity, of names only and with a URI of its own, if
and only if the path that the URI spells is absolute or leads somewhere. The source roots that the
file reveals are absolute if its identity is, so that none of them is empty, and relative
otherwise. -/
theorem identity_of_uri_absolute_iff (named : ofUri files uri = .ok id) :
    (id.path.isAbsolute = true ∧ (∀ c ∈ id.path.components, c ≠ .current ∧ c ≠ .parent) ∧
        (id.toUri? files).isSome = true ↔
      ∃ path, uri.toFilePath? = some path ∧ (path.isAbsolute = true ∨
        ∃ canonical, files.canonicalize path.normalize = .ok canonical)) ∧
    ∀ grammar known overlay root,
      root ∈ (Parse.file (Java.parser grammar) files known id overlay).2 → root ∈ known ∨
        root.isAbsolute = id.path.isAbsolute ∧
          (id.path.isAbsolute = true → root.components ≠ []) := by
  obtain ⟨-, path, spelled, rfl⟩ := ofUri_eq_ok_iff.1 named
  refine ⟨⟨fun ⟨absolute, _⟩ => ⟨path, spelled, isAbsolute_ofPath_iff.1 absolute⟩, ?_⟩, ?_⟩
  · rintro ⟨other, also, leads⟩
    obtain rfl : path = other := Option.some.inj (spelled.symm.trans also)
    have absolute := isAbsolute_ofPath_iff.2 leads
    refine ⟨absolute, components_of_isAbsolute absolute, ?_⟩
    rw [toUri?_ofPath, if_pos absolute]
    rfl
  · intro grammar known overlay root among
    refine (Java.isAbsolute_of_mem_file among).imp_right fun same =>
      ⟨same, fun absolute empty => ?_⟩
    -- A path without components does not start at the root.
    rw [absolute, Path.isAbsolute, empty] at same
    cases same

/-- A disk with nothing on it. -/
def blank : FileSystem := .empty [] List.all_nil

/-- A URI without a separator names a file whose identity is relative and has no URI, and by
declaring its package the file makes the empty path known as a source root. -/
theorem relative_identity_of_uri : ∃ uri id,
    Uri.parse "file:a/A.java" = .ok uri ∧ ofUri blank uri = .ok id ∧
    id.path.isAbsolute = false ∧ id.toUri? blank = none ∧
    (Parse.file (Java.parser fun _ => Layout.Duo.page) blank [] id (some "package a;")).2 =
      [⟨""⟩] :=
  ⟨⟨"file:a/A.java", "file", "a/A.java"⟩, ⟨⟨"a/A.java"⟩⟩, by decide +kernel, by decide +kernel,
    by decide +kernel, by decide +kernel, by decide +kernel⟩

/-- A URI with dots and a host names a file whose identity is absolute. -/
theorem absolute_identity_of_dotted_uri : ∃ uri id,
    Uri.parse "file://host/src/./x/../a/A.java" = .ok uri ∧ ofUri blank uri = .ok id ∧
    id.path.isAbsolute = true ∧ (∀ c ∈ id.path.components, c ≠ .current ∧ c ≠ .parent) ∧
    (id.toUri? blank).isSome = true := by
  have named : ofUri blank ⟨"file://host/src/./x/../a/A.java", "file",
      "/src/./x/../a/A.java"⟩ = .ok ⟨⟨"/src/a/A.java"⟩⟩ := by decide +kernel
  exact ⟨_, _, by decide +kernel, named, (identity_of_uri_absolute_iff named).1.2
    ⟨⟨"/src/./x/../a/A.java"⟩, by decide +kernel, .inl (by decide +kernel)⟩⟩

end Identity

end DiagnosticServer
