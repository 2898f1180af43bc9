import PlainSchema.Proofs.Crf.Escaped

/-!
# Recorded paths survive their text

The text of a path is cut in three layers: at slashes into segments, at a question mark and at
semicolons into the markers of a segment, and at an equals sign into the key and the value of a marker.
What stands between the cuts is escaped and holds none of these characters, so each layer is read back
by itself.

* **Components.**  `unescape_escape`.
* **Markers.**  `Segment.parseMarker_renderMarker`.  A marker is never an empty text, not even with an
  empty key and an empty value, because its equals sign is written.
* **Segments.**  `Segment.parse_render`, whatever the name and the markers are.
* **Paths.**  Segments without a name are what a reader skips.  A path without them is read back, and a
  path that was read has none, `Path.name_ne_of_parse`.
-/

namespace PlainSchema

namespace Crf

/-! ## Markers -/

namespace Segment

theorem toList_renderMarker (marker : String × String) :
    (renderMarker marker).toList = (escape marker.1).toList ++ '=' :: (escape marker.2).toList := by
  simp [renderMarker]

theorem parseMarker_renderMarker (marker : String × String) :
    parseMarker (renderMarker marker).toList = marker := by
  have hkey : '=' ∉ (escape marker.1).toList := notMem_escape rfl (by decide)
  rw [parseMarker, toList_renderMarker, cutFirst?_append hkey]
  simp only [Option.getD_some, String.ofList_toList, unescape_escape]

theorem renderMarker_ne_empty (marker : String × String) : renderMarker marker ≠ "" := by
  intro hempty
  have hlist := toList_renderMarker marker
  rw [hempty] at hlist
  exact absurd hlist.symm (by simp)

theorem notMem_renderMarker {c : Char} (hstructural : isStructural c) (hpercent : c ≠ '%')
    (hassign : c ≠ '=') (marker : String × String) : c ∉ (renderMarker marker).toList := by
  rw [toList_renderMarker, List.mem_append, List.mem_cons]
  rintro (hkey | rfl | hvalue)
  · exact notMem_escape hstructural hpercent hkey
  · exact hassign rfl
  · exact notMem_escape hstructural hpercent hvalue

/-- The markers of a segment are read back from their texts with semicolons in between. -/
theorem map_parseMarker_splitAll {markers : List (String × String)} (hne : markers ≠ []) :
    ((Text.splitAll ';' (List.intercalate [';'] (markers.map fun m => (renderMarker m).toList))).filter
      (!·.isEmpty)).map parseMarker = markers := by
  have hpieces : ∀ piece ∈ markers.map fun m => (renderMarker m).toList, ';' ∉ piece := by
    intro piece hpiece
    obtain ⟨marker, -, rfl⟩ := List.mem_map.mp hpiece
    exact notMem_renderMarker rfl (by decide) (by decide) marker
  have hfull : ∀ piece ∈ markers.map fun m => (renderMarker m).toList, (!piece.isEmpty) = true := by
    intro piece hpiece
    obtain ⟨marker, -, rfl⟩ := List.mem_map.mp hpiece
    simp [renderMarker_ne_empty]
  rw [splitAll_intercalate (by simpa using hne) hpieces, List.filter_eq_self.mpr hfull, List.map_map]
  simp only [Function.comp_def, parseMarker_renderMarker, List.map_id']

/-! ## Segments -/

/-- A segment with markers has them behind a question mark, with semicolons in between. -/
theorem toList_render_of_markers {segment : Segment} (hne : segment.markers ≠ []) :
    segment.render.toList = (escape segment.name).toList ++ '?' ::
      List.intercalate [';'] (segment.markers.map fun m => (renderMarker m).toList) := by
  have hjoin : ∀ (first : String × String) (rest : List (String × String)),
      (renderMarker first).toList ++ (String.join (rest.map fun m => ";" ++ renderMarker m)).toList
        = List.intercalate [';'] ((first :: rest).map fun m => (renderMarker m).toList) := by
    intro first rest
    induction rest generalizing first with
    | nil => simp
    | cons next rest ih =>
      have hnext := ih next
      rw [List.map_cons] at hnext
      rw [List.map_cons, List.map_cons, List.map_cons, List.intercalate_cons_cons, ← hnext]
      simp [String.toList_join]
  rw [render]
  split
  · next hnil => exact absurd hnil hne
  · next first rest hmarkers =>
    rw [hmarkers, ← hjoin first rest]
    simp

/-- A segment is read back from its text, with all its markers. -/
theorem parse_render (segment : Segment) : parse segment.render.toList = segment := by
  have hname : '?' ∉ (escape segment.name).toList := notMem_escape rfl (by decide)
  obtain ⟨name, markers⟩ := segment
  by_cases hmarkers : markers = []
  · subst hmarkers
    rw [parse, render, cutFirst?_of_notMem hname]
    simp only [String.ofList_toList, unescape_escape]
  · rw [parse, toList_render_of_markers hmarkers, cutFirst?_append hname]
    simp only [String.ofList_toList, unescape_escape, map_parseMarker_splitAll hmarkers]

theorem name_parse (raw : List Char) :
    (parse raw).name
      = unescape (String.ofList (((Text.cutFirst? '?' raw).map (·.1)).getD raw)) := by
  rw [parse]
  cases Text.cutFirst? '?' raw <;> rfl

end Segment

/-! ## Paths -/

namespace Path

variable {path : Path}

/-- A path that was read has no segment without a name. -/
theorem name_ne_of_parse {text : String} : ∀ segment ∈ (parse text).segments, segment.name ≠ "" := by
  intro segment hsegment
  obtain ⟨-, hname⟩ := List.mem_filter.mp hsegment
  simpa using hname

theorem parse_render_of_names (h : ∀ segment ∈ path.segments, segment.name ≠ "") :
    parse path.render = path := by
  obtain ⟨segments⟩ := path
  by_cases hne : segments = []
  · subst hne
    rfl
  have hslash : ∀ piece ∈ segments.map fun s => s.render.toList, '/' ∉ piece := by
    intro piece hpiece
    obtain ⟨segment, -, rfl⟩ := List.mem_map.mp hpiece
    exact (toList_render segment).1
  have hfull : ∀ piece ∈ segments.map fun s => s.render.toList, (!piece.isEmpty) = true := by
    intro piece hpiece
    obtain ⟨segment, hsegment, rfl⟩ := List.mem_map.mp hpiece
    have hname := escape_ne_nil (h segment hsegment)
    rcases (toList_render segment).2 with hrender | ⟨markers, hrender⟩ <;>
      simp [hrender, hname]
  have hcut : Text.splitAll '/' (render ⟨segments⟩).toList = segments.map fun s => s.render.toList := by
    rw [render, String.toList_intercalate, List.map_map]
    exact splitAll_intercalate (by simpa using hne) hslash
  have hnamed : ∀ segment ∈ segments, (!segment.name.isEmpty) = true := by
    intro segment hsegment
    simp [h segment hsegment]
  rw [parse, hcut, List.filter_eq_self.mpr hfull, List.map_map]
  simp only [Function.comp_def, Segment.parse_render, List.map_id', List.filter_eq_self.mpr hnamed]

end Path

/-- **Recorded paths survive their text.**  A component is what its escaped form decodes to.  A path is
what its text reads as, whatever its markers are, exactly if each of its segments has a name.  And what
any text at all reads as is read again from its own text. -/
theorem paths_survive_text :
    (∀ component, unescape (escape component) = component) ∧
    (∀ path : Path, Path.parse path.render = path ↔ ∀ segment ∈ path.segments, segment.name ≠ "") ∧
    ∀ text, Path.parse (Path.parse text).render = Path.parse text := by
  refine ⟨unescape_escape, fun path => ⟨fun hparse => ?_, Path.parse_render_of_names⟩, fun text => ?_⟩
  · rw [← hparse]
    exact Path.name_ne_of_parse
  · exact Path.parse_render_of_names Path.name_ne_of_parse

/-- A path with separators and escapes in its names and markers, and with markers that are empty or
repeat a key. -/
def oddPath : Path :=
  ⟨[{ name := "a/b?é", markers := [("", ""), ("k;", "x=y"), ("k;", "%2F")] }, { name := "%" }]⟩

/-- The text of a path with odd names and markers reads as the path. -/
theorem oddPath_survives_text :
    (∀ segment ∈ oddPath.segments, segment.name ≠ "") ∧ Path.parse oddPath.render = oddPath := by
  have hnames : ∀ segment ∈ oddPath.segments, segment.name ≠ "" := by decide
  exact ⟨hnames, (paths_survive_text.2.1 oddPath).mpr hnames⟩

end Crf

end PlainSchema
