import DiagnosticServer.Proofs.Identity.RoundTrip

/-!
# Files with several paths

Two paths that lead to places have the same identity exactly if the places are the same, provided
that the normal form of each still leads where the path does (`KeepsPlace`). It may not: a `..` is
taken to undo the name before it, but after a link it leads to the parent of the place that the link
leads to. So a path can have the identity of another file, or lack the one of its own
(`identity_of_path_through_link`).

The argument follows a path and its normal form side by side. The names that are left so far lead
down a trail of places (`Trail`), and a `..` that comes back to the last place on the trail takes
one name and one place away (`Trail.rise`). If every `..` comes back (`comesBack`), the names that
are left at the end lead where the path leads (`Leads.climbs`). The normal form is no longer than
the path and has no octet that the path does not have, so that nothing but the length of a place
on the way can keep it from being followed.
-/

namespace DiagnosticServer

open FileSystem

namespace FileSystem

variable {files : FileSystem} {path : Path} {place : Location}

/-! ## What normal forms leave out -/

/-- Climbing adds a piece at most to the names of a location. -/
theorem reverse_climb_sublist {piece : Octets} {c : Path.Component}
    (found : Path.Component.ofPiece? piece = some c) (here : Location) :
    (Path.climb here c).reverse.Sublist (here.reverse ++ [piece]) := by
  unfold Path.Component.ofPiece? at found
  split at found
  · cases found
  · split at found
    · cases found
      have fewer : here.tail.reverse.Sublist here.reverse :=
        List.reverse_sublist.2 (List.tail_sublist here)
      exact fewer.trans (List.sublist_append_left _ _)
    · cases found
      rw [Path.climb, List.reverse_cons]

/-- The names that climbing over pieces ends with are some of the pieces, in their order. -/
theorem reverse_foldl_climb_sublist (here : Location) (pieces : List Octets) :
    ((pieces.filterMap Path.Component.ofPiece?).foldl Path.climb here).reverse.Sublist
      (here.reverse ++ pieces) := by
  induction pieces generalizing here with
  | nil => exact List.sublist_append_left _ _
  | cons piece rest ih =>
    cases found : Path.Component.ofPiece? piece with
    | none =>
      rw [List.filterMap_cons_none found]
      exact (ih here).trans ((List.sublist_cons_self piece rest).append_left _)
    | some c =>
      rw [List.filterMap_cons_some found, List.foldl_cons, List.append_cons]
      exact (ih _).trans ((reverse_climb_sublist found here).append_right rest)

/-- An absolute path has an empty piece before its first separator, and its components are the root
and those of the other pieces. -/
theorem exists_pieces_of_isAbsolute (absolute : path.isAbsolute = true) :
    ∃ rest, path.octets = slash :: [slash].intercalate rest ∧ path.pieces = [] :: rest ∧
      path.components = .root :: rest.filterMap Path.Component.ofPiece? := by
  obtain ⟨more, spelled⟩ := List.head?_eq_some_iff.1 (Path.isAbsolute_iff.1 absolute)
  have cut : path.pieces = [] :: more.splitOn slash := by
    rw [Path.pieces, spelled, List.splitOn_cons_eq_if_modifyHead, if_pos BEq.rfl]
  refine ⟨more.splitOn slash, by rw [List.intercalate_splitOn, spelled], cut, ?_⟩
  unfold Path.components
  rw [cut]
  simp [Path.leading, List.splitOn_ne_nil]

/-- The normal form of an absolute path leaves out octets only. -/
theorem normalize_sublist (absolute : path.isAbsolute = true) :
    path.normalize.octets.Sublist path.octets := by
  obtain ⟨rest, spelled, -, listed⟩ := exists_pieces_of_isAbsolute absolute
  rw [(Path.normalize_of_isAbsolute absolute).1, octets_pathOf, spelled, listed]
  exact (Text.intercalate_sublist (reverse_foldl_climb_sublist [] rest)).cons_cons slash

/-- If a path has no null octet, neither has its normal form. -/
theorem hasNull_normalize (absolute : path.isAbsolute = true) (named : hasNull path = false) :
    hasNull path.normalize = false := by
  simp only [hasNull, List.contains_eq_mem, decide_eq_false_iff_not] at named ⊢
  exact fun among => named ((normalize_sublist absolute).subset among)

/-- The normal form of an absolute path is no longer than the path. -/
theorem length_normalize_le (absolute : path.isAbsolute = true) :
    path.normalize.octets.length ≤ path.octets.length :=
  (normalize_sublist absolute).length_le

/-! ## Coming back -/

/-- Whether each `..` among pieces comes back to the place where the name that it takes back was
looked up. The trail lists those places, the last one first; above the root there is the root. -/
def comesBack (files : FileSystem) : List Location → Location → List Octets → Bool
  | _, _, [] => true
  | trail, here, piece :: rest =>
    if piece = [] ∨ piece = [dot] then comesBack files trail here rest
    else if piece = [dot, dot] then
      here.tail = trail.headD [] && comesBack files trail.tail here.tail rest
    else
      match files.walk anywhere linkLimit here [piece] with
      | .ok there => comesBack files (here :: trail) there rest
      | .error _ => false

/-- Each `..` of a path takes back what the name before it did. -/
def ComesBack (files : FileSystem) (path : Path) : Prop := comesBack files [] [] path.pieces = true

/-- From the root names lead down a trail to a place, each by a step that starts at a place of the
trail, and by following that many links in all. -/
inductive Trail (files : FileSystem) : Nat → Location → List Location → Location → Prop where
  /-- The trail starts at the root. -/
  | root : Trail files 0 [] [] []
  /-- One more name leads on. -/
  | leads {used more : Nat} {names here there : Location} {trail : List Location}
      {piece : Octets} (before : Trail files used names trail here)
      (on : Leads files anywhere more here [piece] there) :
      Trail files (used + more) (piece :: names) (here :: trail) there

variable {used spent : Nat} {names here there : Location} {trail : List Location}
  {pieces : List Octets}

/-- The names of a trail lead to its end. -/
theorem Trail.way (along : Trail files spent names trail here) :
    Leads files anywhere spent [] names.reverse here := by
  induction along with
  | root => exact .arrives []
  | leads _ on ih =>
    rw [List.reverse_cons]
    exact ih.append on

/-- By coming back one name and one place are taken off the trail. -/
theorem Trail.rise (along : Trail files spent names trail here)
    (back : here.tail = trail.headD []) :
    ∃ fewer ≤ spent, Trail files fewer names.tail trail.tail here.tail := by
  cases along with
  | root => exact ⟨0, Nat.le_refl _, .root⟩
  | leads before on =>
    rw [back]
    exact ⟨_, Nat.le_add_right _ _, before⟩

/-- If every `..` comes back, then the names that are left by climbing over pieces lead where the
pieces lead. -/
theorem Leads.climbs (leads : Leads files anywhere used here pieces there)
    (few : used ≤ linkLimit) (along : Trail files spent names trail here)
    (back : comesBack files trail here pieces = true) :
    ∃ total ≤ spent + used, Leads files anywhere total []
      ((pieces.filterMap Path.Component.ofPiece?).foldl Path.climb names).reverse there := by
  -- The pieces are followed while the trail is kept along with the names that are left.
  induction pieces generalizing used spent names trail here with
  | nil =>
    cases leads with
    | arrives => exact ⟨spent, Nat.le_add_right _ _, along.way⟩
  | cons piece rest ih =>
    unfold comesBack at back
    split at back
    · rename_i silent
      have nothing : Path.Component.ofPiece? piece = none := if_pos silent
      rw [List.filterMap_cons_none nothing]
      exact ih (leads.of_silent silent) few along back
    · rename_i loud
      split at back
      · rename_i dots
        subst dots
        -- The links on the way to the name that is taken back are saved.
        obtain ⟨returned, on⟩ := Bool.and_eq_true_iff.1 back
        obtain ⟨fewer, less, shorter⟩ := along.rise (of_decide_eq_true returned)
        obtain ⟨total, bound, way⟩ := ih leads.of_dots few shorter on
        exact ⟨total, by omega, way⟩
      · rename_i dots
        -- The name leads to the next place by some of the links of the whole way.
        have whole : Leads files anywhere used here ([piece] ++ rest) there := leads
        obtain ⟨first, more, middle, sum, step, on⟩ := whole.split
        rw [step.walk_eq (by omega)] at back
        have name : Path.Component.ofPiece? piece = some (.name piece) := by
          rw [Path.Component.ofPiece?, if_neg loud, if_neg dots]
        rw [List.filterMap_cons_some name, List.foldl_cons]
        obtain ⟨total, bound, way⟩ := ih on (by omega) (along.leads step) back
        exact ⟨total, by omega, way⟩

/-- Pieces that lead somewhere and have no `..` among them come back. -/
theorem Leads.comesBack_of_not_mem (leads : Leads files anywhere used here pieces there)
    (few : used ≤ linkLimit) (plain : [dot, dot] ∉ pieces) :
    comesBack files trail here pieces = true := by
  induction pieces generalizing used trail here with
  | nil => rfl
  | cons piece rest ih =>
    obtain ⟨other, later⟩ := not_or.1 (List.mem_cons.not.1 plain)
    unfold comesBack
    split
    · rename_i silent
      exact ih (leads.of_silent silent) few later
    · have whole : Leads files anywhere used here ([piece] ++ rest) there := leads
      obtain ⟨first, more, middle, sum, step, on⟩ := whole.split
      rw [if_neg (Ne.symm other), step.walk_eq (by omega)]
      exact ih on (by omega) later

/-- If every `..` of an absolute path comes back, then its normal form leads where the path
leads. -/
theorem follow_normalize (absolute : path.isAbsolute = true)
    (found : files.follow anywhere path = .ok place) (back : ComesBack files path) :
    files.follow anywhere path.normalize = .ok place := by
  obtain ⟨named, -, used, few, leads⟩ := follow_eq_ok_iff.1 found
  obtain ⟨total, bound, way⟩ := (if_pos (Path.isAbsolute_iff.1 absolute) ▸ leads).climbs few .root
    back
  obtain ⟨rest, -, cut, listed⟩ := exists_pieces_of_isAbsolute absolute
  obtain ⟨climbed, names⟩ := Path.normalize_of_isAbsolute absolute
  refine follow_eq_ok_iff.2 ⟨hasNull_normalize absolute named, ?_, total, by omega, ?_⟩
  · simp [climbed, octets_pathOf]
  · rw [if_pos (by simp [climbed, octets_pathOf]), climbed, leads_pathOf_iff names, listed]
    rwa [cut] at way

end FileSystem

namespace Identity

variable {files : FileSystem} {path other : Path} {place elsewhere : Location}

/-! ## Places and identities -/

/-- The normal form of a path leads where the path leads, and no place on the way has too long a
path to be asked for. -/
def KeepsPlace (files : FileSystem) (path : Path) : Prop :=
  files.canonicalize path.normalize = (files.resolve path).map pathOf

/-- A URI spells a path. -/
def Spells (uri : Uri) (path : Path) : Prop := uri.isFile = true ∧ uri.toFilePath? = some path

/-- A URI has the identity of the path that it spells. -/
theorem Spells.ofUri_eq {uri : Uri} (spells : Spells uri path) :
    ofUri files uri = .ok (ofPath files path) :=
  ofUri_eq_ok_iff.2 ⟨spells.1, path, spells.2, rfl⟩

/-- The URI of an absolute path spells the path if it is a text. -/
theorem spells_ofAbsolutePath (absolute : path.isAbsolute = true) (text : path.octets.IsText) :
    Spells (Uri.ofAbsolutePath path) path := by
  have read := Uri.toFilePath?_ofAbsolutePath absolute
  rw [Path.mk_text text] at read
  exact ⟨Uri.isFile_ofAbsolutePath path, read⟩

/-- A path without `..` that leads to a place comes back. -/
theorem comesBack_of_resolve (absolute : path.isAbsolute = true)
    (found : files.resolve path = .ok place) (plain : [dot, dot] ∉ path.pieces) :
    ComesBack files path := by
  obtain ⟨-, -, used, few, leads⟩ := follow_eq_ok_iff.1 (resolve_eq_ok_iff.1 found).1
  rw [if_pos (Path.isAbsolute_iff.1 absolute)] at leads
  exact leads.comesBack_of_not_mem few plain

/-- A path that leads to a place keeps it if its normal form leads there. -/
theorem keepsPlace_iff (found : files.resolve path = .ok place) :
    KeepsPlace files path ↔ files.canonicalize path.normalize = .ok (pathOf place) := by
  rw [KeepsPlace, found]
  rfl

/-- The identity of a path that keeps its place is the path of the place. -/
theorem KeepsPlace.ofPath_eq (keeps : KeepsPlace files path)
    (found : files.resolve path = .ok place) : ofPath files path = ⟨pathOf place⟩ := by
  unfold ofPath
  rw [(keepsPlace_iff found).1 keeps]

/-- A path that leads to a place leads to a solid one with short names. -/
theorem solid_of_resolve (absolute : path.isAbsolute = true)
    (found : files.resolve path = .ok place) :
    Solid files place ∧ ∀ name ∈ place, name.length ≤ nameLimit := by
  obtain ⟨followed, -⟩ := resolve_eq_ok_iff.1 found
  obtain ⟨-, -, used, -, leads⟩ := follow_eq_ok_iff.1 followed
  rw [if_pos (Path.isAbsolute_iff.1 absolute)] at leads
  exact ⟨solid_of_follow followed, leads.short (List.forall_mem_nil _)⟩

/-- A path keeps its place if and only if its identity is that of the place's own path. -/
theorem keepsPlace_iff_ofPath_eq (absolute : path.isAbsolute = true)
    (found : files.resolve path = .ok place) :
    KeepsPlace files path ↔ ofPath files path = ofPath files (pathOf place) := by
  obtain ⟨solid, short⟩ := solid_of_resolve absolute found
  rw [ofPath_pathOf solid]
  refine ⟨fun keeps => keeps.ofPath_eq found, fun same => (keepsPlace_iff found).2 ?_⟩
  rcases ofPath_cases files path with ⟨reached, -, followed, named⟩ | ⟨cause, refused, named⟩
  · -- The normal form was followed, and it led to the place, whose path is the identity.
    exact canonicalize_eq_ok_iff.2 ⟨reached, followed, Identity.mk.inj (named.symm.trans same)⟩
  · -- The normal form is the path of the place, and not too long: it could not be refused.
    have normal : path.normalize = pathOf place := Identity.mk.inj (named.symm.trans same)
    obtain ⟨followed, fits⟩ := resolve_eq_ok_iff.1 found
    have bound := Nat.lt_of_le_of_lt (length_normalize_le absolute) fits
    have free := hasNull_normalize absolute (follow_eq_ok_iff.1 followed).1
    rw [normal] at bound free ⊢
    exact canonicalize_eq_ok_iff.2 ⟨place, solid.follow_of_short short
      (fun _ _ above entries => withinLimit_of_suffix bound above entries) free, rfl⟩

/-- A path of which every `..` comes back keeps its place if its normal form can be followed. -/
theorem keepsPlace_of_comesBack (absolute : path.isAbsolute = true)
    (found : files.resolve path = .ok place) (back : ComesBack files path) :
    KeepsPlace files path ↔ ∃ canonical, files.canonicalize path.normalize = .ok canonical := by
  rw [keepsPlace_iff found]
  refine ⟨fun kept => ⟨_, kept⟩, fun ⟨canonical, followed⟩ => ?_⟩
  obtain ⟨reached, within, rfl⟩ := canonicalize_eq_ok_iff.1 followed
  -- Where the limit is not met, the normal form leads to the place; so it does within the limit.
  have normal := follow_normalize absolute (resolve_eq_ok_iff.1 found).1 back
  rw [followed, follow_unique within normal]

/-- Of two absolute paths that lead to places and keep them, the identities are the same if and only
if the places are, and so are the identities of all URIs that spell them. A path that is a text is
spelled by the URI that it has, and any other path by no URI. An absolute path that leads to a place
keeps it if and only if it has the identity of the place's own path. If each `..` takes back what
the name before it did, as when there is none, that is so exactly if its normal form can be
followed. -/
theorem same_identity_iff_same_place (absolute : path.isAbsolute = true)
    (found : files.resolve path = .ok place) :
    (∀ other elsewhere, other.isAbsolute = true → files.resolve other = .ok elsewhere →
      KeepsPlace files path → KeepsPlace files other →
        (ofPath files path = ofPath files other ↔ place = elsewhere) ∧
        ∀ uri also, Spells uri path → Spells also other →
          (ofUri files uri = ofUri files also ↔ place = elsewhere)) ∧
    ((path.octets.IsText → Spells (Uri.ofAbsolutePath path) path) ∧
      ∀ uri, Spells uri path → path.octets.IsText) ∧
    (KeepsPlace files path ↔ ofPath files path = ofPath files (pathOf place)) ∧
    (ComesBack files path → (KeepsPlace files path ↔
      ∃ canonical, files.canonicalize path.normalize = .ok canonical)) ∧
    ([dot, dot] ∉ path.pieces → ComesBack files path) := by
  refine ⟨fun other elsewhere starts leads keeps holds => ?_,
    ⟨spells_ofAbsolutePath absolute, fun uri spells => Uri.isText_of_toFilePath? spells.2⟩,
    keepsPlace_iff_ofPath_eq absolute found, keepsPlace_of_comesBack absolute found,
    comesBack_of_resolve absolute found⟩
  have alike : ofPath files path = ofPath files other ↔ place = elsewhere := by
    rw [keeps.ofPath_eq found, holds.ofPath_eq leads]
    refine ⟨fun same => ?_, fun same => by rw [same]⟩
    exact Path.pathOf_injective (solid_of_resolve absolute found).1.names
      (solid_of_resolve starts leads).1.names (Identity.mk.inj same)
  refine ⟨alike, fun uri also spells reads => ?_⟩
  rw [spells.ofUri_eq, reads.ofUri_eq, Except.ok.injEq, alike]

/-- A disk with a link to a directory in another, and files of one name beside the link and beside
that directory. -/
def linked : FileSystem :=
  blank.writeFile ⟨"/a/b/C.java"⟩ (.zeros 0) |>.writeFile ⟨"/a/A.java"⟩ (.zeros 0)
    |>.writeFile ⟨"/A.java"⟩ (.zeros 0) |>.makeLink ⟨"/l"⟩ "a/b"

/-- A path by the link, with a `..` that comes back, and the path without links lead to one file and
have one identity. -/
theorem same_identity_through_link :
    linked.resolve ⟨"/a/../l/C.java"⟩ = .ok (["C.java", "b", "a"].map Octets.ofText) ∧
    linked.resolve ⟨"/a/b/C.java"⟩ = .ok (["C.java", "b", "a"].map Octets.ofText) ∧
    ComesBack linked ⟨"/a/../l/C.java"⟩ ∧
    ofPath linked ⟨"/a/../l/C.java"⟩ = ofPath linked ⟨"/a/b/C.java"⟩ ∧
    ofUri linked (Uri.ofAbsolutePath ⟨"/a/../l/C.java"⟩) =
      ofUri linked (Uri.ofAbsolutePath ⟨"/a/b/C.java"⟩) := by
  have leads : linked.resolve ⟨"/a/../l/C.java"⟩ =
      .ok (["C.java", "b", "a"].map Octets.ofText) := by decide +kernel
  have plain : linked.resolve ⟨"/a/b/C.java"⟩ =
      .ok (["C.java", "b", "a"].map Octets.ofText) := by decide +kernel
  have back : comesBack linked [] [] (Path.pieces ⟨"/a/../l/C.java"⟩) = true := by decide +kernel
  obtain ⟨alike, spells, -, keeps, -⟩ := same_identity_iff_same_place (by decide +kernel) leads
  obtain ⟨-, also, -, holds, clear⟩ := same_identity_iff_same_place (by decide +kernel) plain
  have canonical : linked.canonicalize (Path.normalize ⟨"/a/../l/C.java"⟩) = .ok ⟨"/a/b/C.java"⟩ ∧
      linked.canonicalize (Path.normalize ⟨"/a/b/C.java"⟩) = .ok ⟨"/a/b/C.java"⟩ := by
    decide +kernel
  obtain ⟨same, named⟩ := alike _ _ (by decide +kernel) plain ((keeps back).2 ⟨_, canonical.1⟩)
    ((holds (clear (by decide +kernel))).2 ⟨_, canonical.2⟩)
  exact ⟨leads, plain, back, same.2 rfl,
    (named _ _ (spells.1 (by decide +kernel)) (also.1 (by decide +kernel))).2 rfl⟩

/-- A path that leads by the link and up again has the identity of the file beside the link, and not
that of the file that it leads to. -/
theorem identity_of_path_through_link :
    linked.resolve ⟨"/l/../A.java"⟩ = .ok (["A.java", "a"].map Octets.ofText) ∧
    linked.resolve ⟨"/a/A.java"⟩ = .ok (["A.java", "a"].map Octets.ofText) ∧
    linked.resolve ⟨"/A.java"⟩ = .ok (["A.java"].map Octets.ofText) ∧
    ofPath linked ⟨"/l/../A.java"⟩ = ofPath linked ⟨"/A.java"⟩ ∧
    ofPath linked ⟨"/l/../A.java"⟩ ≠ ofPath linked ⟨"/a/A.java"⟩ := by
  decide +kernel

end Identity

end DiagnosticServer
