import DiagnosticServer.Proofs.Identity.Canonical
import DiagnosticServer.Proofs.Path.Texts
import DiagnosticServer.Proofs.Uri.FilePath

/-!
# From identities to URIs and back

As long as the disk stays as it is, an identity whose path is a text is found again from its own
URI. Writing and reading the URI gives back the path, whatever characters it has; the path is its
own normal form; and on the disk it leads to itself if it is that of a place, or else leads nowhere,
as the path that the identity came from did (`Identity.ofPath_ofPath`). An identity whose path is
not a text has a URI too, and no other identity has the same. But the octets of that URI are read as
the text by which the path is shown, and this is the path of another file
(`Identity.octets_lost_by_uri`).
-/

namespace DiagnosticServer

open FileSystem

namespace Identity

variable {files : FileSystem} {path : Path} {id other : Identity}

/-- An identity that some path or URI has. -/
def Arises (files : FileSystem) (id : Identity) : Prop :=
  (∃ path, ofPath files path = id) ∨ ∃ uri, ofUri files uri = .ok id

/-- An identity that a URI has is that of a path. -/
theorem Arises.exists_path (arises : Arises files id) : ∃ path, ofPath files path = id := by
  rcases arises with found | ⟨uri, named⟩
  · exact found
  · obtain ⟨-, path, -, same⟩ := ofUri_eq_ok_iff.1 named
    exact ⟨path, same⟩

/-- The identity of the path of a place is that path, which leads there or nowhere. -/
theorem ofPath_pathOf {place : Location} (solid : Solid files place) :
    ofPath files (pathOf place) = ⟨pathOf place⟩ := by
  unfold ofPath
  rw [Path.normalize_pathOf solid.names]
  split
  · rename_i canonical found
    rw [solid.canonicalize_pathOf found]
  · rfl

/-- An identity that a path has is the identity of its own path. -/
theorem ofPath_ofPath (files : FileSystem) (path : Path) :
    ofPath files (ofPath files path).path = ofPath files path := by
  rcases ofPath_cases files path with ⟨place, solid, -, same⟩ | ⟨cause, refused, same⟩
  · rw [same, ofPath_pathOf solid]
  · -- The normal form is followed again, and refused again.
    rw [same]
    unfold ofPath
    rw [Path.normalize_normalize, refused]

/-- The identity of a path as it is shown is the identity with that path exactly if the path is a
text, or if what is shown leads to the same place. -/
theorem Arises.ofPath_text_iff (arises : Arises files id) :
    ofPath files (.mk id.path.text) = id ↔ id.path.octets.IsText ∨
      files.canonicalize (Path.normalize (.mk id.path.text)) = .ok id.path := by
  constructor
  · intro same
    rcases ofPath_cases files (.mk id.path.text) with ⟨place, -, followed, named⟩ | ⟨_, -, named⟩
    · exact .inr (canonicalize_eq_ok_iff.2
        ⟨place, followed, congrArg Identity.path (named.symm.trans same)⟩)
    · -- What leads nowhere is kept in its normal form, which is a text.
      have normal : id.path = Path.normalize (.mk id.path.text) :=
        congrArg Identity.path (same.symm.trans named)
      rw [normal]
      exact .inl (Path.isText_normalize (Octets.isText_iff.2 ⟨_, rfl⟩))
  · rintro (text | leads)
    · obtain ⟨path, rfl⟩ := arises.exists_path
      rw [Path.mk_text text, ofPath_ofPath]
    · unfold ofPath
      rw [leads]

/-- The URI of an absolute path names the identity of the path as it is shown. -/
theorem ofUri_ofAbsolutePath (files : FileSystem) (absolute : path.isAbsolute = true) :
    ofUri files (Uri.ofAbsolutePath path) = .ok (ofPath files (.mk path.text)) :=
  ofUri_eq_ok_iff.2 ⟨Uri.isFile_ofAbsolutePath path, _,
    Uri.toFilePath?_ofAbsolutePath absolute, rfl⟩

/-- An identity that has a URI is absolute, and the URI is that of its path. -/
theorem Arises.toUri?_eq_some_iff {uri : Uri} (arises : Arises files id) :
    id.toUri? files = some uri ↔
      id.path.isAbsolute = true ∧ Uri.ofAbsolutePath id.path = uri := by
  obtain ⟨path, rfl⟩ := arises.exists_path
  rw [toUri?_ofPath, Option.ite_none_right_eq_some, Option.some.injEq]

/-- On a disk that stays as it is, for every identity that a path or a URI has: its URI, if it has
one, is a well-formed URI of a file, and names the identity of its path as it is shown. This is the
identity itself if and only if the path is a text, or what is shown leads to the same place. The
identity has a URI if and only if it is absolute, whatever octets its path has, and no other
identity has the same. -/
theorem identity_uri_round_trip (arises : Arises files id) :
    (∀ uri, id.toUri? files = some uri →
      Uri.parse uri.text = .ok uri ∧ uri.isFile = true ∧
      ofUri files uri = .ok (ofPath files (.mk id.path.text)) ∧
      (ofUri files uri = .ok id ↔ id.path.octets.IsText ∨
        files.canonicalize (Path.normalize (.mk id.path.text)) = .ok id.path)) ∧
    ((id.toUri? files).isSome = true ↔ id.path.isAbsolute = true) ∧
    ∀ other uri, Arises files other → id.toUri? files = some uri →
      other.toUri? files = some uri → id = other := by
  refine ⟨fun uri written => ?_, ?_, fun other uri also written alike => ?_⟩
  · obtain ⟨absolute, rfl⟩ := arises.toUri?_eq_some_iff.1 written
    have read := ofUri_ofAbsolutePath files absolute
    refine ⟨Uri.parse_ofAbsolutePath absolute, Uri.isFile_ofAbsolutePath _, read, ?_⟩
    rw [read, Except.ok.injEq, arises.ofPath_text_iff]
  · rw [Option.isSome_iff_exists]
    exact ⟨fun ⟨uri, written⟩ => (arises.toUri?_eq_some_iff.1 written).1,
      fun absolute => ⟨_, arises.toUri?_eq_some_iff.2 ⟨absolute, rfl⟩⟩⟩
  · -- Octets are read back from how they are written, so that the URIs of two paths differ.
    have one := (arises.toUri?_eq_some_iff.1 written).2
    have two := (also.toUri?_eq_some_iff.1 alike).2
    exact congrArg Identity.mk (Uri.ofAbsolutePath_injective (one.trans two.symm))

/-- A disk with a link to a directory whose name has a blank, a percent sign and a mark. -/
def oddlyNamed : FileSystem :=
  (blank.writeFile ⟨"/ü 100%?#/A.java"⟩ (.zeros 0)).makeLink ⟨"/l"⟩ "ü 100%?#"

/-- The same disk where nothing may be looked up in the directory. -/
def locked : FileSystem := oddlyNamed.permit ⟨"/ü 100%?#"⟩ ⟨false, false⟩

/-- The file behind the link is found again by the URI of its identity, which is its path without
links. Where the directory is locked, so is the path by the link. -/
theorem odd_identity_round_trip : (∃ id uri,
    ofPath oddlyNamed ⟨"/l/A.java"⟩ = id ∧ id.toUri? oddlyNamed = some uri ∧
    uri.text = "file:///%C3%BC%20100%25%3F%23/A.java" ∧
    Uri.parse uri.text = .ok uri ∧ uri.isFile = true ∧ ofUri oddlyNamed uri = .ok id) ∧
    locked.canonicalize ⟨"/l/A.java"⟩ = .error .permissionDenied ∧
    ∃ uri, Identity.toUri? locked ⟨⟨"/l/A.java"⟩⟩ = some uri ∧
      ofUri locked uri = .ok ⟨⟨"/l/A.java"⟩⟩ := by
  have written : (ofPath oddlyNamed ⟨"/l/A.java"⟩).toUri? oddlyNamed =
      some ⟨"file:///%C3%BC%20100%25%3F%23/A.java", "file", "/%C3%BC%20100%25%3F%23/A.java"⟩ := by
    decide +kernel
  obtain ⟨parsed, ofFile, -, back⟩ := (identity_uri_round_trip (.inl ⟨_, rfl⟩)).1 _ written
  have refused : ofPath locked ⟨"/l/A.java"⟩ = ⟨⟨"/l/A.java"⟩⟩ := by decide +kernel
  have named : Identity.toUri? locked ⟨⟨"/l/A.java"⟩⟩ =
      some ⟨"file:///l/A.java", "file", "/l/A.java"⟩ := by decide +kernel
  exact ⟨⟨_, _, rfl, written, rfl, parsed, ofFile, back.2 (.inl (by decide +kernel))⟩,
    by decide +kernel, _, named,
    ((identity_uri_round_trip (.inl ⟨_, refused⟩)).1 _ named).2.2.2.2 (.inl (by decide +kernel))⟩

/-- The identity of a path whose one name is the octet 255 has a URI, and that URI is read as the
path of the character that is shown in its place. -/
theorem octets_lost_by_uri : ∃ id uri,
    ofPath blank (.ofOctets [slash, 0xFF]) = id ∧ id.path.isAbsolute = true ∧
    id.toUri? blank = some uri ∧ uri.text = "file:///%FF" ∧ Uri.parse uri.text = .ok uri ∧
    ofUri blank uri = .ok ⟨⟨"/\uFFFD"⟩⟩ ∧ ofUri blank uri ≠ .ok id :=
  ⟨⟨.ofOctets [slash, 0xFF]⟩, ⟨"file:///%FF", "file", "/%FF"⟩, by decide +kernel⟩

/-- A disk with a link to a directory whose name is the octet 255. -/
def unspoken : FileSystem :=
  (blank.writeFile (.ofOctets (slash :: 0xFF :: Octets.ofText "/A.java")) (.zeros 0)).makeLink
    ⟨"/l"⟩ [0xFF]

-- The file behind the link is lost as well: its own URI is read as the path of no file.
example : ∃ id uri, ofUri unspoken ⟨"file:///l/A.java", "file", "/l/A.java"⟩ = .ok id ∧
    id.toUri? unspoken = some uri ∧ uri.text = "file:///%FF/A.java" ∧
    ofUri unspoken uri = .ok ⟨⟨"/\uFFFD/A.java"⟩⟩ ∧ ofUri unspoken uri ≠ .ok id :=
  ⟨⟨.ofOctets (slash :: 0xFF :: Octets.ofText "/A.java")⟩,
    ⟨"file:///%FF/A.java", "file", "/%FF/A.java"⟩, by decide +kernel⟩

end Identity

end DiagnosticServer
