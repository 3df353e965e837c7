import UriTemplates.Proofs.Matching.Retrieval
import UriTemplates.Proofs.Router.Changes

/-!
# Dispatch

A template without variables is literal text, so its pattern matches that text alone and binds
nothing (`Template.match?_of_isFixed`). Looking a URI up among such templates therefore finds what
matching them one after the other finds (`Router.scan_fixed`), and a router resolves a URI as if
it matched all its templates in order (`Router.resolve_eq_scan`).
-/

namespace UriTemplates

namespace Pattern

/-- Literal texts are read as what they are together, and as nothing else. -/
theorem whole?_only_literals {κ : Type} (texts : List Text) (uri : Text) :
    (seq (literals texts) : Pattern κ).readings.whole? uri =
      if uri = texts.flatten then some [] else none := by
  split
  · rename_i same
    have read := whole?_literals texts ([] : List (Pattern κ)) []
    rwa [List.append_nil, List.append_nil, whole?_seq_nil, ← same] at read
  · rename_i differs
    rw [← Option.not_isSome_iff_eq_none, Option.isSome_iff_exists]
    rintro ⟨marks, read⟩
    exact differs (eq_flatten_of_literals (Readings.derives_of_whole? read))

end Pattern

namespace Template

/-- **A template without variables matches the URI that is its text**, and no other, whatever the
hints are, and it binds nothing. -/
theorem match?_of_isFixed {template : Template} (noVariables : Router.isFixed template = true)
    (hints : Hints) (uri : Text) :
    template.match? hints uri =
      .ok (if uri = template.text then some ⟨template, .empty⟩ else none) := by
  obtain ⟨literals, parts⟩ := Router.isFixed_iff.mp noVariables
  have built : template.pattern hints =
      .ok (.seq (Pattern.literals (literals.map Literal.text))) := by
    rw [pattern, parts, Part.patterns_only_literals]
    rfl
  have captured := captures?_pattern built uri
  rw [Pattern.whole?_only_literals, ← text_of_literals parts] at captured
  have bound : bindingsFrom [] hints 0 template.parts = .ok (some []) := by
    rw [parts, ← List.append_nil (Part.literals literals), Part.bindingsFrom_literals]
    rfl
  rw [match?, built]
  simp only [bind, Except.bind, matchWith, captured]
  split
  · simp only [ofCaptures, bound, bind, Except.bind]
    rfl
  · rfl

end Template

namespace Router

variable {α : Type}

/-- The first of the templates that matches a URI, when each is matched with the same hints. -/
def scan (hints : Hints) (uri : Text) :
    List (Template × α) → Except Error (Option (Route α))
  | [] => .ok none
  | (template, value) :: rest => do
    match ← template.match? hints uri with
    | some found => return some ⟨value, found⟩
    | none => scan hints uri rest

/-- Hints that are read for every template are the same for all of them. -/
theorem firstMatch_eq_scan {required lists maps : Datum} {hints : Hints}
    (accepted : Hints.ofData required lists maps = .ok hints) (uri : Text)
    (templates : List (Template × α)) :
    firstMatch required lists maps uri templates = scan hints uri templates := by
  induction templates with
  | nil => rfl
  | cons entry rest ih =>
    simp only [firstMatch, scan, accepted, ih]
    rfl

/-- Looking a URI up among the texts of templates without variables finds what matching these
templates one after the other finds. -/
theorem scan_fixed {entries : List (Text × Template × α)}
    (filed : ∀ text template value, (text, template, value) ∈ entries →
      text = template.text ∧ isFixed template = true)
    (hints : Hints) (uri : Text) (rest : List (Template × α)) :
    scan hints uri (entries.map Prod.snd ++ rest) =
      match OrderedMap.lookup uri entries with
      | some (template, value) => .ok (some ⟨value, template, .empty⟩)
      | none => scan hints uri rest := by
  induction entries with
  | nil => rfl
  | cons entry entries ih =>
    obtain ⟨text, template, value⟩ := entry
    obtain ⟨rfl, noVariables⟩ := filed text template value List.mem_cons_self
    have later := ih fun text template value member =>
      filed text template value (List.mem_cons_of_mem _ member)
    rw [List.map_cons, List.cons_append, scan, Template.match?_of_isFixed noVariables,
      OrderedMap.lookup]
    rcases eq_or_ne uri template.text with rfl | differs
    · rw [if_pos rfl, if_pos rfl]
      rfl
    · rw [if_neg differs, if_neg (Ne.symm differs), ← later]
      rfl

/-- A router that files a registry lists its templates without variables before the others, each
sort in the order of registration. -/
theorem Files.entries_eq {router : Router α} {registry : Registry α}
    (files : Files router registry) :
    router.entries = (registry.sort true ++ registry.sort false).map Prod.snd := by
  rw [entries, files.fixed, files.patterned, List.map_append]

/-- A router that files a registry resolves a URI as if it matched its templates in order. -/
theorem Files.resolve_eq {router : Router α} {registry : Registry α}
    (files : Files router registry) {required lists maps : Datum} {hints : Hints}
    (accepted : Hints.ofData required lists maps = .ok hints) (uri : Text) :
    router.resolve required lists maps uri = scan hints uri router.entries := by
  have filed : ∀ text template value, (text, template, value) ∈ router.fixed.entries →
      text = template.text ∧ isFixed template = true := by
    intro text template value member
    rw [files.fixed] at member
    obtain ⟨known, noVariables⟩ := List.mem_filter.mp member
    exact ⟨files.keyed _ known, by simpa using noVariables⟩
  rw [resolve, entries, scan_fixed filed, firstMatch_eq_scan accepted]
  rfl

/-- **A router resolves a URI as a plain scan of its templates does.** After any changes it lists
its templates without variables before the others, each sort in the order of registration. The
result is that of the first template that matches with the given hints, or the error of one before
it; and a template without variables matches its own text alone, whatever the hints are, and binds
nothing. -/
theorem resolve_eq_scan (changes : List (Change α)) {required lists maps : Datum} {hints : Hints}
    (accepted : Hints.ofData required lists maps = .ok hints) (uri : Text) :
    (after changes).entries =
        ((Registry.after changes).sort true ++ (Registry.after changes).sort false).map Prod.snd ∧
      (after changes).resolve required lists maps uri = scan hints uri (after changes).entries ∧
      ∀ template, isFixed template = true → ∀ (hints : Hints) (uri : Text),
        template.match? hints uri =
          .ok (if uri = template.text then some ⟨template, .empty⟩ else none) :=
  ⟨(files_after changes).entries_eq, (files_after changes).resolve_eq accepted uri,
    fun _ noVariables hints uri => Template.match?_of_isFixed noVariables hints uri⟩

/-- A template without variables comes first, though another that matches was added before it. -/
theorem resolve_eq_scan_required :
    Hints.ofData (.list [.text ['x']]) (.list []) (.list []) = .ok { required := [['x']] } ∧
      ((after [.addText ['u', '/', '\x7b', 'x', '\x7d'] 1,
        .addText ['u', '/', 'm', 'e'] 2]).resolve (.list [.text ['x']]) (.list []) (.list [])
          ['u', '/', 'm', 'e']).map (Option.map fun route => (route.value, route.found)) =
        .ok (some (2, ⟨⟨[.literal ⟨['u', '/', 'm', 'e'], rfl⟩]⟩, .empty⟩)) := by
  have accepted : Hints.ofData (.list [.text ['x']]) (.list []) (.list []) =
      .ok { required := [['x']] } := rfl
  obtain ⟨-, resolved, -⟩ := resolve_eq_scan
    [.addText ['u', '/', '\x7b', 'x', '\x7d'] 1, .addText ['u', '/', 'm', 'e'] 2] accepted
    ['u', '/', 'm', 'e']
  rw [resolved]
  exact ⟨accepted, by decide +kernel⟩

end Router

end UriTemplates
