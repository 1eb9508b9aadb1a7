import Conform.Proofs.Paths

/-!
# Canonical routes and paths

A path is taken apart at its slashes, and each piece is dropped, takes back the step before it, or
becomes a step: an index if it writes one, a key otherwise. So some routes come from no path. Main
statement: a route is the one that its text names exactly if all its steps are canonical, which are
the steps that reading makes. The normalized paths are the texts of these routes, each of one.

Reading can be interrupted at any slash. What is behind it is taken at the route that has been read
up to there, so a path that is resolved against another one is the two joined by a slash.
-/

namespace Conform

namespace Segment

/-- The steps that reading makes: an index in its range, or a key that is a name between slashes and
not what an index is written as. -/
def Canonical : Segment → Prop
  | index i => i < indexLimit
  | key k => Name k ∧ ∀ i < indexLimit, k ≠ toString i

theorem canonical_iff {s : Segment} : s.Canonical ↔ s.Addressable := by
  cases s with
  | index i =>
    constructor
    · exact addressable_index
    · intro h
      exact (ofText_eq_index_iff.1 h.named).2
  | key k =>
    constructor
    · rintro ⟨name, unlike⟩
      exact ⟨name, ofText_eq_key_iff.2 unlike⟩
    · intro h
      exact ⟨h.toName, ofText_eq_key_iff.1 h.named⟩

end Segment

namespace Route

def Canonical (r : Route) : Prop := ∀ s ∈ r, s.Canonical

theorem canonical_iff {r : Route} : r.Canonical ↔ r.Addressable :=
  forall₂_congr fun _ _ => Segment.canonical_iff

/-- Whatever the path, its dots and empty pieces are gone when it has been read. -/
theorem parse_canonical (path : String) : (parse path).Canonical :=
  canonical_iff.2 (parse_addressable path)

theorem parse_text_iff {r : Route} : parse r.text = r ↔ r.Canonical := by
  constructor
  · intro h
    rw [← h]
    exact parse_canonical r.text
  · intro h
    exact parse_text (canonical_iff.1 h)

theorem text_parse_inj {path path' : String} :
    (parse path).text = (parse path').text ↔ parse path = parse path' := by
  constructor
  · exact (parse_addressable path).eq_of_text (parse_addressable path')
  · intro h
    rw [h]

end Route

namespace Path

theorem normalize_normalize (path : String) : normalize (normalize path) = normalize path :=
  normalize_text (Route.parse_addressable path)

theorem normalize_eq_self_iff {path : String} :
    normalize path = path ↔ ∃ r : Route, r.Canonical ∧ r.text = path := by
  constructor
  · intro h
    exact ⟨Route.parse path, Route.parse_canonical path, h⟩
  · rintro ⟨r, hr, rfl⟩
    exact normalize_text (Route.canonical_iff.1 hr)

end Path

/-- **Canonical routes are the routes of paths.** Every route that is read from a path is canonical,
and a route, whatever its steps, is what its text names exactly if it is. So a path that has been
normalized stays as it is, two paths that name different routes do not become the same text, and the
normalized paths are the texts of canonical routes. -/
theorem reads_back_iff_canonical :
    (∀ path : String, (Route.parse path).Canonical) ∧
    (∀ r : Route, Route.parse r.text = r ↔ r.Canonical) ∧
    (∀ path : String, Path.normalize (Path.normalize path) = Path.normalize path) ∧
    (∀ path path' : String, (Route.parse path).text = (Route.parse path').text ↔
      Route.parse path = Route.parse path') ∧
    ∀ path : String, Path.normalize path = path ↔ ∃ r : Route, r.Canonical ∧ r.text = path := by
  refine ⟨Route.parse_canonical, ?_, Path.normalize_normalize, ?_, ?_⟩
  · intro r
    exact Route.parse_text_iff
  · intro path path'
    exact Route.text_parse_inj
  · intro path
    exact Path.normalize_eq_self_iff

/-- The largest index is one below the first digits that name a key. -/
example : Route.parse "x/..//007/18446744073709551615/./18446744073709551616" =
    [.key "007", .index 18446744073709551615, .key "18446744073709551616"] := by decide +kernel

/-- Whether a path starts with a slash. Such a path is read from the root wherever it stands. -/
def Path.Absolute (path : String) : Prop := path.toList.head? = some '/'

instance (path : String) : Decidable (Path.Absolute path) :=
  inferInstanceAs (Decidable (path.toList.head? = some '/'))

namespace Route

variable {r : Route} {path first second : String}

/-- What stands behind a slash is taken at the route that has been read before it. -/
theorem walkPath_join (r : Route) (first second : String) :
    r.walkPath (first ++ "/" ++ second) = (r.walkPath first).walkPath second := by
  have hchars : (first ++ "/" ++ second).toList = first.toList ++ '/' :: second.toList := by simp
  rw [walkPath, hchars, slashPieces_append, List.foldl_append]
  rfl

theorem parse_join (first second : String) :
    parse (first ++ "/" ++ second) = (parse first).walkPath second :=
  walkPath_join root first second

theorem resolve_absolute (h : Path.Absolute path) : r.resolve path = parse path := if_pos h

theorem resolve_relative (h : ¬Path.Absolute path) : r.resolve path = r.walkPath path := if_neg h

/-- The first of two joined paths decides where they start, unless it is empty. -/
theorem absolute_join (ne : first ≠ "") :
    Path.Absolute (first ++ "/" ++ second) ↔ Path.Absolute first := by
  have hne : first.toList ≠ [] := fun h => ne (String.toList_eq_nil_iff.1 h)
  cases hfirst : first.toList with
  | nil => exact absurd hfirst hne
  | cons c cs => simp [Path.Absolute, hfirst]

theorem resolve_resolve (ne : first ≠ "") (relative : ¬Path.Absolute second) :
    (r.resolve first).resolve second = r.resolve (first ++ "/" ++ second) := by
  rw [resolve_relative relative]
  by_cases h : Path.Absolute first
  · rw [resolve_absolute h, resolve_absolute ((absolute_join ne).2 h), parse_join]
  · rw [resolve_relative h, resolve_relative (mt (absolute_join ne).1 h), walkPath_join]

end Route

namespace Path

variable {path : String}

theorem resolve_of_relative (base : String) (h : ¬Absolute path) :
    resolve base path = normalize (base ++ "/" ++ path) := by
  rw [resolve, Route.resolve_relative h, normalize, Route.parse_join]

theorem resolve_of_absolute (base : String) (h : Absolute path) :
    resolve base path = normalize path := by
  rw [resolve, Route.resolve_absolute h, normalize]

theorem normalize_resolve (base path : String) :
    normalize (resolve base path) = resolve base path :=
  normalize_text ((Route.parse_addressable base).resolve path)

/-- **Resolution is normalization of the joined text, and composes.** A path that is seen from a
base is the two joined by a slash, unless it starts with one; what comes out is normalized. To
resolve one path after another is to resolve the two joined, if the second does not start with a
slash and the first is not empty: behind an empty one the joining slash would come first and lead to
the root. -/
theorem resolution_composes (base path : String) (r : Route) {first : String} (ne : first ≠ "") :
    (¬Absolute path → resolve base path = normalize (base ++ "/" ++ path)) ∧
    (Absolute path → resolve base path = normalize path) ∧
    normalize (resolve base path) = resolve base path ∧
    (¬Absolute path → (r.resolve first).resolve path = r.resolve (first ++ "/" ++ path)) := by
  refine ⟨resolve_of_relative base, resolve_of_absolute base, normalize_resolve base path, ?_⟩
  intro relative
  exact Route.resolve_resolve ne relative

/-- The second path takes back more than there is, and an empty piece of the first counts for
nothing. -/
theorem resolution_composes_above :
    "x//." ≠ "" ∧ ¬Absolute "../../../../c" ∧ Absolute "/x/../y" ∧
    resolve "/a/b" "../../../../c" = normalize "/a/b/../../../../c" ∧
    resolve "/a/b" "/x/../y" = normalize "/x/../y" ∧
    (Route.resolve [.key "k", .index 7] "x//.").resolve "../../../../c" = [.key "c"] ∧
    Route.resolve [.key "k", .index 7] "x//./../../../../c" = [.key "c"] := by
  have ne : "x//." ≠ "" := by decide
  have relative : ¬Absolute "../../../../c" := by decide +kernel
  have rooted : Absolute "/x/../y" := by decide +kernel
  obtain ⟨joined, -, -, composed⟩ :=
    resolution_composes "/a/b" "../../../../c" [.key "k", .index 7] ne
  obtain ⟨-, alone, -, -⟩ := resolution_composes "/a/b" "/x/../y" [.key "k", .index 7] ne
  have hroute : Route.resolve [.key "k", .index 7] "x//./../../../../c" = [.key "c"] := by
    decide +kernel
  exact ⟨ne, relative, rooted, joined relative, alone rooted,
    (composed relative).trans hroute, hroute⟩

end Path

end Conform
