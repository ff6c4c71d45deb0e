import StorageFeatures.Address
import StorageFeatures.Proofs.Text.Trimming

/-!
# The written form of an address

An operator may give a socket path with or without its scheme and an endpoint with or without
`http://`, so many texts say one address. Among them is the text that is written for the address,
and it stands for all of them. `Address.Says` lists the texts that say an address, and
`Address.canonical_of_text` is the main result:

* a text is read as the address that it says, and only a text of blanks and a scheme without a path
  say none;
* what is written for an address that was read says it again, also with blanks around it, so two
  texts say one address exactly if what is written for their addresses is the same;
* a path from the root may be given its scheme, and a bare host may be given `http://`.

Two addresses can be written alike: the socket path `x` and the endpoint `unix://x` are. The second
is never read, because every endpoint that is read has a scheme of its own (`Names.schemed_url`).
-/

namespace StorageFeatures

namespace Address

open Text (Blank Bare Trims)

/-! ### What a text says -/

/-- A target with a scheme for the connection. -/
def Schemed (cs : List Char) : Prop := httpScheme <+: cs ∨ httpsScheme <+: cs

/-- A text that is neither a path from the root nor anything with a scheme. -/
structure Host (cs : List Char) : Prop where
  ne_nil : cs ≠ []
  not_path : cs.head? ≠ some '/'
  not_socket : ¬ unixScheme <+: cs
  not_schemed : ¬ Schemed cs

/-- What a text without blanks around it says. -/
inductive Names : List Char → Address → Prop where
  | path {cs : List Char} (h : cs.head? = some '/') : Names cs (.unix (String.ofList cs))
  | socket {path : List Char} (h : path ≠ []) :
    Names (unixScheme ++ path) (.unix (String.ofList path))
  | schemed {cs : List Char} (h : Schemed cs) : Names cs (.tcp (String.ofList cs))
  | host {cs : List Char} (h : Host cs) : Names cs (.tcp (String.ofList (httpScheme ++ cs)))

/-- What a text without blanks around it lacks to be an address. -/
inductive Lacks : List Char → Malformed → Prop where
  | text : Lacks [] .empty
  | path : Lacks unixScheme (.noSocketPath "unix://")

/-- A text says an address: the blanks around it do not count. -/
def Says (raw : String) (a : Address) : Prop := ∃ t, Trims raw.toList t ∧ Names t a

/-- What reading makes of a text, and what is written for the address that was read. -/
structure Canonical (raw : String) : Prop where
  /-- A text is read as the address that it says. -/
  accepted : ∀ a, read raw = .ok a ↔ Says raw a
  /-- Nothing but blanks, or a scheme without a path. -/
  refused : (∃ fault, read raw = .error fault) ↔
    Trims raw.toList [] ∨ Trims raw.toList unixScheme
  /-- What is written is read back, with blanks around it. -/
  returned : ∀ a, read raw = .ok a → ∀ before after : String, Blank before.toList →
    Blank after.toList → read (before ++ toString a ++ after) = .ok a
  /-- A socket that was read has a path. -/
  socket : ∀ path, read raw = .ok (.unix path) → path ≠ ""
  /-- An endpoint that was read has a scheme. -/
  endpoint : ∀ url, read raw = .ok (.tcp url) → Schemed url.toList
  /-- Texts say one address exactly if it is written in one way. -/
  told : ∀ other, (∃ a, read raw = .ok a ∧ read other = .ok a) ↔
    ∃ a b, read raw = .ok a ∧ read other = .ok b ∧ toString a = toString b
  /-- A path from the root is read alike with its scheme. -/
  rooted : raw.toList.head? = some '/' →
    ∃ a, read raw = .ok a ∧ read ("unix://" ++ raw) = .ok a
  /-- A bare host is read alike with the scheme that it is given. -/
  hosted : Bare raw.toList → Host raw.toList →
    ∃ a, read raw = .ok a ∧ read ("http://" ++ raw) = .ok a

/-! ### Reading -/

variable {cs : List Char} {a b : Address} {e : Malformed} {raw other : String}

/-- Where a text is no path from the root, its scheme decides. -/
theorem ofChars_of_head?_ne (hne : cs ≠ []) (h : cs.head? ≠ some '/') :
    ofChars cs = match after? unixScheme cs with
      | some [] => .error (.noSocketPath (String.ofList cs))
      | some path => .ok (.unix (String.ofList path))
      | none =>
        if httpScheme.isPrefixOf cs || httpsScheme.isPrefixOf cs then
          .ok (.tcp (String.ofList cs))
        else .ok (.tcp ("http://" ++ String.ofList cs)) := by
  unfold ofChars
  split
  · exact absurd rfl hne
  · exact absurd rfl h
  · rfl

/-- The scheme is decided by looking at the beginning. -/
theorem schemed_iff :
    Schemed cs ↔ (httpScheme.isPrefixOf cs || httpsScheme.isPrefixOf cs) = true := by
  rw [Schemed, Bool.or_eq_true, List.isPrefixOf_iff_prefix, List.isPrefixOf_iff_prefix]

/-- Both schemes of a URL begin with the same letter, which no path does. -/
theorem Schemed.head? (h : Schemed cs) : cs.head? = some 'h' := by
  rcases h with ⟨r, rfl⟩ | ⟨r, rfl⟩ <;> rfl

/-- A text is read as what it says. -/
theorem Names.ofChars_eq (h : Names cs a) : ofChars cs = .ok a := by
  cases h with
  | path h =>
    obtain ⟨r, rfl⟩ := List.head?_eq_some_iff.mp h
    rfl
  | @socket path h =>
    have hhead : (unixScheme ++ path).head? = some 'u' := rfl
    rw [ofChars_of_head?_ne (List.append_ne_nil_of_right_ne_nil _ h) (by rw [hhead]; decide),
      after?_append]
    cases path with
    | nil => exact absurd rfl h
    | cons c r => rfl
  | schemed h =>
    have hhead := h.head?
    -- no scheme of an endpoint begins as that of a socket does
    have hsocket : after? unixScheme cs = none := by
      rw [after?_eq_none_iff]
      rintro ⟨r, rfl⟩
      cases hhead
    rw [ofChars_of_head?_ne (by rintro rfl; cases hhead) (by rw [hhead]; decide), hsocket]
    exact if_pos (schemed_iff.mp h)
  | host h =>
    rw [ofChars_of_head?_ne h.ne_nil h.not_path, after?_eq_none_iff.mpr h.not_socket]
    refine (if_neg (mt schemed_iff.mpr h.not_schemed)).trans ?_
    rw [String.ofList_append]
    rfl

/-- Text without an address is refused for the reason it lacks one. -/
theorem Lacks.ofChars_eq (h : Lacks cs e) : ofChars cs = .error e := by
  cases h <;> rfl

/-- Every text says something or lacks something. -/
theorem exists_lacks_or_names (cs : List Char) : (∃ e, Lacks cs e) ∨ ∃ a, Names cs a := by
  by_cases hnil : cs = []
  · exact .inl ⟨_, by rw [hnil]; exact .text⟩
  by_cases hpath : cs.head? = some '/'
  · exact .inr ⟨_, .path hpath⟩
  by_cases hsocket : unixScheme <+: cs
  · obtain ⟨path, rfl⟩ := hsocket
    by_cases hempty : path = []
    · exact .inl ⟨_, by rw [hempty, List.append_nil]; exact .path⟩
    · exact .inr ⟨_, .socket hempty⟩
  by_cases hscheme : Schemed cs
  · exact .inr ⟨_, .schemed hscheme⟩
  · exact .inr ⟨_, .host ⟨hnil, hpath, hsocket, hscheme⟩⟩

/-- What is accepted is what names an address. -/
theorem ofChars_eq_ok_iff : ofChars cs = .ok a ↔ Names cs a := by
  refine ⟨fun h => ?_, Names.ofChars_eq⟩
  rcases exists_lacks_or_names cs with ⟨e, he⟩ | ⟨b, hb⟩
  · rw [he.ofChars_eq] at h
    cases h
  · rw [hb.ofChars_eq] at h
    cases h
    exact hb

theorem ofChars_eq_error_iff : ofChars cs = .error e ↔ Lacks cs e := by
  refine ⟨fun h => ?_, Lacks.ofChars_eq⟩
  rcases exists_lacks_or_names cs with ⟨f, hf⟩ | ⟨b, hb⟩
  · rw [hf.ofChars_eq] at h
    cases h
    exact hf
  · rw [hb.ofChars_eq] at h
    cases h

/-! ### Texts -/

/-- **Reading takes exactly the texts that say an address.** -/
theorem parse_eq_ok_iff : parse raw = .ok a ↔ Says raw a := by
  simp only [parse, ofChars_eq_ok_iff, Says, Text.trims_iff, exists_eq_left']

/-- Blanks around the text do not change the reason for which it is refused. -/
theorem parse_eq_error_iff : parse raw = .error e ↔ ∃ t, Trims raw.toList t ∧ Lacks t e := by
  simp only [parse, ofChars_eq_error_iff, Text.trims_iff, exists_eq_left']

/-- The address that is read is the one that the text says. -/
theorem read_eq_ok_iff : read raw = .ok a ↔ Says raw a := by
  rw [← parse_eq_ok_iff, read]
  cases parse raw <;> simp

/-- A text that is refused lacks something, and the fault tells what. -/
theorem read_eq_error_iff {fault : Fault} : read raw = .error fault ↔
    ∃ e, (∃ t, Trims raw.toList t ∧ Lacks t e) ∧ fault = .configuration e.message := by
  simp only [← parse_eq_error_iff, read]
  cases parse raw <;> simp [eq_comm]

/-! ### Written addresses -/

/-- A socket is displayed as its scheme and its path. -/
theorem toList_toString_unix (path : List Char) :
    (toString (unix (String.ofList path))).toList = unixScheme ++ path :=
  String.toList_append.trans (congrArg (unixScheme ++ ·) String.toList_ofList)

/-- A URL is displayed as it is. -/
theorem toList_toString_tcp (url : List Char) :
    (toString (tcp (String.ofList url))).toList = url :=
  String.toList_ofList

/-- What is written for an address says it. -/
theorem Names.written (h : Names cs a) : Names (toString a).toList a := by
  cases h with
  | path h =>
    rw [toList_toString_unix]
    exact .socket (by rintro rfl; cases h)
  | socket h =>
    rw [toList_toString_unix]
    exact .socket h
  | schemed h =>
    rw [toList_toString_tcp]
    exact .schemed h
  | host h =>
    rw [toList_toString_tcp]
    exact .schemed (.inl (List.prefix_append ..))

theorem bare_unixScheme : Bare unixScheme := Text.bare_of_any rfl

theorem bare_httpScheme : Bare httpScheme := Text.bare_of_any rfl

/-- What is written begins with a scheme or as the text does, and ends as the text does. -/
theorem Names.bare_written (h : Names cs a) (hcs : Bare cs) : Bare (toString a).toList := by
  cases h with
  | path h =>
    rw [toList_toString_unix]
    exact bare_unixScheme.append hcs
  | socket h =>
    rw [toList_toString_unix]
    exact hcs
  | schemed h =>
    rw [toList_toString_tcp]
    exact hcs
  | host h =>
    rw [toList_toString_tcp]
    exact bare_httpScheme.append hcs

/-- **What is written for an address is read back.** -/
theorem Says.written (h : Says raw a) {before after : String} (hb : Blank before.toList)
    (ha : Blank after.toList) : Says (before ++ toString a ++ after) a := by
  obtain ⟨t, htrim, hnames⟩ := h
  have hbare : Bare t := htrim.bare
  refine ⟨(toString a).toList, ⟨before.toList, after.toList, ?_, hb, ha, ?_⟩, hnames.written⟩
  · rw [String.toList_append, String.toList_append]
  · exact hnames.bare_written hbare

/-- Addresses that are said are written apart, since what is written says only one. -/
theorem Says.eq_of_toString_eq (ha : Says raw a) (hb : Says other b)
    (h : toString a = toString b) : a = b := by
  obtain ⟨s, -, hs⟩ := ha
  obtain ⟨t, -, ht⟩ := hb
  have hread : ofChars (toString a).toList = .ok b := by
    rw [h]
    exact ht.written.ofChars_eq
  exact Except.ok.inj (hs.written.ofChars_eq.symm.trans hread)

/-! ### What is said -/

/-- No socket has an empty path. -/
theorem Names.path_ne {path : String} (h : Names cs (.unix path)) : path ≠ "" := by
  cases h with
  | path h =>
    rw [Ne, String.ofList_eq_empty_iff]
    rintro rfl
    cases h
  | socket h =>
    rw [Ne, String.ofList_eq_empty_iff]
    exact h

/-- What was read as a URL has a scheme, also where the text had none. -/
theorem Names.schemed_url {url : String} (h : Names cs (.tcp url)) : Schemed url.toList := by
  cases h with
  | schemed h =>
    rw [String.toList_ofList]
    exact h
  | host h =>
    rw [String.toList_ofList]
    exact .inl (List.prefix_append ..)

/-- A path from the root says the same with its scheme. -/
theorem said_alike_of_rooted (h : raw.toList.head? = some '/') :
    ∃ a, Says raw a ∧ Says ("unix://" ++ raw) a := by
  obtain ⟨r, hr⟩ := List.head?_eq_some_iff.mp h
  -- the same blanks go at the end, whatever stands before the path
  obtain ⟨rest, hrest⟩ := Text.exists_trims_append r
  have hslash : Bare ['/'] := Text.bare_of_any rfl
  have hplain : Trims raw.toList ('/' :: rest) := by
    rw [hr]
    exact hrest ['/'] hslash (List.cons_ne_nil _ _)
  have hscheme : Trims ("unix://" ++ raw).toList (unixScheme ++ '/' :: rest) := by
    rw [String.toList_append, hr]
    exact hrest (unixScheme ++ ['/']) (bare_unixScheme.append hslash) (List.cons_ne_nil _ _)
  exact ⟨_, ⟨_, hplain, .path rfl⟩, _, hscheme, .socket (List.cons_ne_nil _ _)⟩

/-- A bare host says the same with the scheme that it is given. -/
theorem Host.said_alike (h : Host raw.toList) (hbare : Bare raw.toList) :
    ∃ a, Says raw a ∧ Says ("http://" ++ raw) a := by
  refine ⟨_, ⟨_, hbare.trims, .host h⟩, _, ?_, .schemed (.inl (List.prefix_append ..))⟩
  rw [String.toList_append]
  exact (bare_httpScheme.append hbare).trims

/-- **One written form for each address.** What is read is written in a form that is read as the
same address again, blanks around it or not; so two texts say one address exactly if they are
written alike. -/
theorem canonical_of_text (raw : String) : Canonical raw where
  accepted _ := read_eq_ok_iff
  refused := by
    constructor
    · rintro ⟨fault, h⟩
      obtain ⟨e, ⟨t, htrim, hlacks⟩, -⟩ := read_eq_error_iff.mp h
      cases hlacks with
      | text => exact .inl htrim
      | path => exact .inr htrim
    · rintro (h | h)
      · exact ⟨_, read_eq_error_iff.mpr ⟨_, ⟨_, h, .text⟩, rfl⟩⟩
      · exact ⟨_, read_eq_error_iff.mpr ⟨_, ⟨_, h, .path⟩, rfl⟩⟩
  returned a h before after hb ha := read_eq_ok_iff.mpr ((read_eq_ok_iff.mp h).written hb ha)
  socket path h := by
    obtain ⟨t, -, hnames⟩ := read_eq_ok_iff.mp h
    exact hnames.path_ne
  endpoint url h := by
    obtain ⟨t, -, hnames⟩ := read_eq_ok_iff.mp h
    exact hnames.schemed_url
  told other := by
    constructor
    · rintro ⟨a, h, hother⟩
      exact ⟨a, a, h, hother, rfl⟩
    · rintro ⟨a, b, h, hother, heq⟩
      obtain rfl := (read_eq_ok_iff.mp h).eq_of_toString_eq (read_eq_ok_iff.mp hother) heq
      exact ⟨a, h, hother⟩
  rooted h := by
    simp only [read_eq_ok_iff]
    exact said_alike_of_rooted h
  hosted hbare h := by
    simp only [read_eq_ok_iff]
    exact h.said_alike hbare

/-- A path may begin with a blank, and a host may come close to a scheme. -/
theorem canonical_close :
    (read "\tunix:// run \n" = .ok (.unix " run") ∧ Blank "\n".toList ∧ Blank " ".toList ∧
      read ("\n" ++ toString (unix " run") ++ " ") = .ok (.unix " run")) ∧
    ("/run ".toList.head? = some '/' ∧
      ∃ a, read "/run " = .ok a ∧ read ("unix://" ++ "/run ") = .ok a) ∧
    (Bare "unix:/run".toList ∧ Host "unix:/run".toList ∧
      ∃ a, read "unix:/run" = .ok a ∧ read ("http://" ++ "unix:/run") = .ok a) := by
  have hread : read "\tunix:// run \n" = .ok (.unix " run") := rfl
  have hline : Blank "\n".toList := List.all_eq_true.mp rfl
  have hspace : Blank " ".toList := List.all_eq_true.mp rfl
  have hroot : "/run ".toList.head? = some '/' := rfl
  have hbare : Bare "unix:/run".toList := Text.bare_of_any rfl
  have hhost : Host "unix:/run".toList :=
    ⟨by decide, by decide, by decide, by unfold Schemed; decide⟩
  exact ⟨⟨hread, hline, hspace, (canonical_of_text _).returned _ hread _ _ hline hspace⟩,
    ⟨hroot, (canonical_of_text _).rooted hroot⟩,
    ⟨hbare, hhost, (canonical_of_text _).hosted hbare hhost⟩⟩

end Address

end StorageFeatures
