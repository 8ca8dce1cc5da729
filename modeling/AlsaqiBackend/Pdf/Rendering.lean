import AlsaqiBackend.Lib.Numerals
import AlsaqiBackend.Lib.Separator
import AlsaqiBackend.Templates.Invariants

/-!
# Queued and direct rendering

A queued job compiles the active template of its type, and `PdfEngine.renderFromTemplate` takes a compiled template
from a cache by its id and version, and falls back to a built-in one. Both hand an HTML document and the options of
`page.pdf` to the browser. `renderings_agree` says when they hand the same, along every run of template calls and
renderings whose updates write versions that were not stored with another content.
-/

namespace AlsaqiBackend.Pdf.Rendering

open AlsaqiBackend.Lib AlsaqiBackend.Templates

/-! ## The document -/

inductive Language
  | ar
  | en
  deriving DecidableEq, Repr

def Language.text : Language → String
  | ar => "ar"
  | en => "en"

/-- `PdfSettings`; the sizes and margins are columns of integers. -/
structure PdfSettings where
  arabicFontName : String
  arabicFontSize : ℤ
  headingFontSize : ℤ
  subheadingFontSize : ℤ
  tableFontSize : ℤ
  rtlEnabled : Bool
  marginTop : ℤ
  marginRight : ℤ
  marginBottom : ℤ
  marginLeft : ℤ
  headerTemplate : Option String
  footerTemplate : Option String
  showPageNumber : Bool
  deriving DecidableEq, Repr

/-- `text.replace(/\s+/g, ' ')`, after a space or not. -/
def collapseSpaces (inSpace : Bool) : List Char → List Char
  | [] => []
  | c :: text =>
    if isJsWhitespace c then
      if inSpace then collapseSpaces true text else ' ' :: collapseSpaces true text
    else c :: collapseSpaces false text

def sanitizeCssFontName (name : String) : String :=
  let structural : List Char := ['<', '>', '\x7b', '\x7d', '(', ')', ';', '\'', '"', '\\', '/']
  let cleaned := trimJs (collapseSpaces false (name.toList.filter fun c => !structural.contains c))
  if cleaned = [] then "sans-serif" else String.ofList cleaned

/-- An integer is finite. -/
def sanitizeCssNumber (value : ℤ) : String := String.ofList (intText (if value < 0 then 0 else value))

/-- The document up to the body. -/
def documentHead (settings : PdfSettings) (language : Language) : String :=
  let isRtl := language = .ar || settings.rtlEnabled
  let dir := if isRtl then "rtl" else "ltr"
  let safeFontName := sanitizeCssFontName settings.arabicFontName
  let fontFamily :=
    if isRtl then "'" ++ safeFontName ++ "', Tahoma, 'Amiri', sans-serif" else "'" ++ safeFontName ++ "', sans-serif"
  let arabicFontSize := sanitizeCssNumber settings.arabicFontSize
  let padding := sanitizeCssNumber settings.marginTop ++ "mm " ++ sanitizeCssNumber settings.marginRight ++ "mm " ++
    sanitizeCssNumber settings.marginBottom ++ "mm " ++ sanitizeCssNumber settings.marginLeft ++ "mm"
  "\n".intercalate
    ["<!DOCTYPE html>",
      "<html lang=\"" ++ language.text ++ "\" dir=\"" ++ dir ++ "\">",
      "<head>",
      "  <meta charset=\"UTF-8\">",
      "  <meta name=\"viewport\" content=\"width=device-width, initial-scale=1.0\">",
      "  <style>",
      "    @font-face \x7b",
      "      font-family: 'Tahoma';",
      "      src: local('Tahoma');",
      "    \x7d",
      "    @font-face \x7b",
      "      font-family: 'Amiri';",
      "      src: local('Amiri');",
      "    \x7d",
      "",
      "    * \x7b",
      "      box-sizing: border-box;",
      "    \x7d",
      "",
      "    body \x7b",
      "      font-family: " ++ fontFamily ++ ";",
      "      font-size: " ++ arabicFontSize ++ "pt;",
      "      direction: " ++ dir ++ ";",
      "      margin: 0;",
      "      padding: " ++ padding ++ ";",
      "      line-height: 1.6;",
      "    \x7d",
      "",
      "    h1, h2, h3 \x7b",
      "      font-size: " ++ sanitizeCssNumber settings.headingFontSize ++ "pt;",
      "    \x7d",
      "",
      "    h4, h5, h6 \x7b",
      "      font-size: " ++ sanitizeCssNumber settings.subheadingFontSize ++ "pt;",
      "    \x7d",
      "",
      "    table \x7b",
      "      font-size: " ++ sanitizeCssNumber settings.tableFontSize ++ "pt;",
      "      width: 100%;",
      "      border-collapse: collapse;",
      "    \x7d",
      "",
      "    table th, table td \x7b",
      "      border: 1px solid #ddd;",
      "      padding: 6px 8px;",
      "      text-align: " ++ (if isRtl then "right" else "left") ++ ";",
      "    \x7d",
      "",
      "    table th \x7b",
      "      background-color: #f5f5f5;",
      "      font-weight: bold;",
      "    \x7d",
      "",
      "    @media print \x7b",
      "      body \x7b",
      "        -webkit-print-color-adjust: exact;",
      "        print-color-adjust: exact;",
      "      \x7d",
      "",
      "      table \x7b",
      "        page-break-inside: auto;",
      "      \x7d",
      "",
      "      tr \x7b",
      "        page-break-inside: avoid;",
      "        page-break-after: auto;",
      "      \x7d",
      "",
      "      h1, h2, h3, h4, h5, h6 \x7b",
      "        page-break-after: avoid;",
      "      \x7d",
      "",
      "      img \x7b",
      "        max-width: 100%;",
      "        page-break-inside: avoid;",
      "      \x7d",
      "    \x7d",
      "  </style>",
      "</head>",
      "<body dir=\"" ++ dir ++ "\" style=\"font-family: " ++ fontFamily ++ "; font-size: " ++ arabicFontSize ++
        "pt; direction: " ++ dir ++ "; margin: 0; padding: " ++ padding ++ ";\">",
      "  "]

def wrapWithStyles (bodyHtml : String) (settings : PdfSettings) (language : Language) : String :=
  documentHead settings language ++ bodyHtml ++ "\n</body>\n</html>"

structure PdfOptions where
  format : String
  marginTop : String
  marginRight : String
  marginBottom : String
  marginLeft : String
  printBackground : Bool
  displayHeaderFooter : Bool
  headerTemplate : Option String
  footerTemplate : Option String
  deriving DecidableEq, Repr

/-- A document and options, as the browser gets them. -/
structure Handed where
  fullHtml : String
  options : PdfOptions
  deriving DecidableEq, Repr

/-- A margin of the options. -/
def millimetres (value : ℤ) : String := String.ofList (intText value) ++ "mm"

/-- The options that `renderPage` and `renderPdfAttempt` put together, word by word the same. -/
def pdfOptions (settings : PdfSettings) : PdfOptions :=
  let headerTemplate := orElse settings.headerTemplate none
  let footerTemplate := orElse settings.footerTemplate none
  { format := "A4"
    marginTop := millimetres settings.marginTop
    marginRight := millimetres settings.marginRight
    marginBottom := millimetres settings.marginBottom
    marginLeft := millimetres settings.marginLeft
    printBackground := true
    displayHeaderFooter := headerTemplate.isSome || footerTemplate.isSome || settings.showPageNumber
    headerTemplate
    footerTemplate :=
      if footerTemplate.isSome || settings.showPageNumber then some (footerTemplate.getD "") else none }

/-- `renderPage` of the worker. -/
def renderPage (fullHtml : String) (settings : PdfSettings) (_language : Language) : Handed :=
  ⟨fullHtml, pdfOptions settings⟩

/-- `renderPdfAttempt` of the engine; a retry hands the same again. -/
def renderPdfAttempt (fullHtml : String) (settings : PdfSettings) (_language : Language) : Handed :=
  ⟨fullHtml, pdfOptions settings⟩

/-! ## The two pipelines -/

/-- Handlebars and `sanitize-html`, and the built-in templates. A template that does not parse is found out when it
is applied. -/
structure Platform (Data Compiled : Type) where
  compile : String → Compiled
  apply : Compiled → Data → Except String String
  /-- `{ ...data, isRtl }`. -/
  withRtl : Data → Bool → Data
  sanitizeHtml : String → String
  fallbackTemplates : String → Option String

def LEGACY_MAPPING : List (String × String) :=
  [("تقرير التدقيق", "audit_report"), ("التقرير الربعي", "quarterly_report"), ("التقرير السنوي", "annual_report"),
    ("خطة التدقيق", "audit_plan"), ("مهام التدقيق", "audit_missions"), ("التوصيات", "recommendations"),
    ("خطاب صادر", "outgoing_letter"), ("عام", "general"), ("auditReport", "audit_report"),
    ("quarterlyReport", "quarterly_report"), ("complianceRequirements", "audit_report"),
    ("activityAuditResults", "audit_report"), ("eventParticipationSummary", "general"),
    ("monthlyDepartmentReport", "quarterly_report")]

def resolveTemplateTypeKey (input : String) : String :=
  if isValidTemplateTypeKey input then input else (LEGACY_MAPPING.lookup input).getD "general"

/-- `getActiveByType`; the unique index allows one such row. -/
def getActiveByType (table : List Template) (typeKey : String) : Option Template :=
  table.find? fun row => row.templateTypeKey = typeKey && row.indexed

variable {Data Compiled : Type} (p : Platform Data Compiled)

/-- `PdfJobData`, as far as the rendering reads it. -/
structure PdfJobData (Data : Type) where
  templateId : String
  payload : Data

/-- The language that the worker takes. -/
def PdfSettings.language (settings : PdfSettings) : Language := if settings.rtlEnabled then .ar else .en

/-- `processPdfJob`, up to what it hands to the browser. -/
def processPdfJob (table : List Template) (settings : PdfSettings) (job : PdfJobData Data) : Except String Handed :=
  match getActiveByType table (resolveTemplateTypeKey job.templateId) with
  | none => .error ("Template not found for type: " ++ job.templateId)
  | some template =>
    match p.apply (p.compile template.content) job.payload with
    | .error message => .error message
    | .ok renderedBody =>
      let fullHtml := wrapWithStyles (p.sanitizeHtml renderedBody) settings settings.language
      .ok (renderPage fullHtml settings settings.language)

/-- The entries of `TemplateLRUCache`, the one used least recently first. -/
abbrev TemplateCache (Compiled : Type) := List (List Char × Compiled)

def MAX_CACHE_SIZE : ℕ := 100

/-- `templateCache.get`: what is found goes to the end. -/
def cacheGet (key : List Char) (cache : TemplateCache Compiled) : Option Compiled × TemplateCache Compiled :=
  match cache.lookup key with
  | some value => (some value, cache.filter (·.1 ≠ key) ++ [(key, value)])
  | none => (none, cache)

/-- `templateCache.set`. -/
def cacheSet (key : List Char) (value : Compiled) (cache : TemplateCache Compiled) : TemplateCache Compiled :=
  if (cache.lookup key).isSome then cache.filter (·.1 ≠ key) ++ [(key, value)]
  else if cache.length ≥ MAX_CACHE_SIZE then cache.tail ++ [(key, value)]
  else cache ++ [(key, value)]

def cacheKey (id : String) (version : ℤ) : List Char := id.toList ++ ':' :: intText version

/-- `compileTemplate`, with the cache after it. -/
def compileTemplate (cache : TemplateCache Compiled) (template : Template) (data : Data) :
    Except String String × TemplateCache Compiled :=
  let key := cacheKey template.id template.version
  match cacheGet key cache with
  | (some compiled, cache) => (p.apply compiled data, cache)
  | (none, cache) =>
    let compiled := p.compile template.content
    (p.apply compiled data, cacheSet key compiled cache)

def buildFallbackHtml (data : Data) (language : Language) (templateTypeKey : String) : Except String String :=
  match p.fallbackTemplates templateTypeKey with
  | none => .error "You must pass a string or Handlebars AST to Handlebars.compile. You passed undefined"
  | some fallbackHtml => p.apply (p.compile fallbackHtml) (p.withRtl data (language = .ar))

structure RenderOptions (Data : Type) where
  template : Option Template
  data : Data
  settings : PdfSettings
  language : Language

/-- The body of `renderFromTemplate`: of the template, or of a built-in one. -/
def templateHtml (cache : TemplateCache Compiled) (options : RenderOptions Data) :
    Except String String × TemplateCache Compiled :=
  match options.template with
  | none => (buildFallbackHtml p options.data options.language "general", cache)
  | some template =>
    match compileTemplate p cache template options.data with
    | (.ok html, cache) => (.ok html, cache)
    | (.error _, cache) =>
      let templateTypeKey := if template.templateTypeKey = "" then "general" else template.templateTypeKey
      (buildFallbackHtml p options.data options.language templateTypeKey, cache)

/-- `renderFromTemplate`, up to what it hands to the browser. -/
def renderFromTemplate (cache : TemplateCache Compiled) (options : RenderOptions Data) :
    Except String Handed × TemplateCache Compiled :=
  match templateHtml p cache options with
  | (.error message, cache) => (.error message, cache)
  | (.ok html, cache) =>
    let fullHtml := wrapWithStyles (p.sanitizeHtml html) options.settings options.language
    (.ok (renderPdfAttempt fullHtml options.settings options.language), cache)

/-! ## Runs -/

/-- The templates, and the cache of the engine. -/
structure PdfState (Compiled : Type) where
  templates : TemplateState
  cache : TemplateCache Compiled

inductive PdfAction (Data : Type)
  | template (a : TemplateAction)
  | render (options : RenderOptions Data)
  | dispose

/-- The template of an inline preview. -/
def previewTemplate (content : String) : Template := ⟨"preview", "Preview", "general", content, .draft, false, 0⟩

/-- The new id of an action is that of a preview. -/
def takesPreviewId : TemplateAction → Bool
  | .commit _ newId => newId = "preview"
  | _ => false

/-- What the engine is asked to render: nothing, a template that has been stored, or a preview. -/
def Known (s : TemplateState) : Option Template → Prop
  | none => True
  | some template => template.stored ∈ s.history ∨ template = previewTemplate template.content

instance (s : TemplateState) (template : Option Template) : Decidable (Known s template) := by
  unfold Known
  split <;> infer_instance

/-- One step. The database gives a new template a UUID, which is not the id of a preview. -/
def pdfStep (s : PdfState Compiled) : PdfAction Data → Option (PdfState Compiled)
  | .template a =>
    if takesPreviewId a then none
    else (templateStep s.templates a).map fun templates => { s with templates }
  | .render options =>
    if Known s.templates options.template then some { s with cache := (renderFromTemplate p s.cache options).2 }
    else none
  | .dispose => some { s with cache := [] }

/-- A table in order whose ids are not that of a preview. -/
structure StoredTable extends SoundTable where
  notPreview : ∀ row ∈ rows, row.id ≠ "preview"

/-- A table, and an engine that has rendered nothing. -/
def PdfState.init (table : StoredTable) : PdfState Compiled := ⟨.init table.toSoundTable, []⟩

/-- The update that is committed has not had its version stored with another content. -/
def FreshVersion (s : TemplateState) : TemplateAction → Prop
  | .commit i _ => ∀ call, s.calls[i]? = some call →
    match call.write with
    | .update existing data newVersion => ∀ row ∈ s.table, row.id = existing.id →
      ∀ r ∈ s.history, r.id = row.id → r.version = newVersion → r.content = data.content.getD row.content
    | _ => True
  | _ => True

def VersionsKept (s : PdfState Compiled) : PdfAction Data → Prop
  | .template a => FreshVersion s.templates a
  | _ => True

/-- The job hands to the browser what the engine hands to it for the same template, data, settings and language. -/
def Agrees (s : PdfState Compiled) (settings : PdfSettings) (job : PdfJobData Data) : Prop :=
  let current := getActiveByType s.templates.table (resolveTemplateTypeKey job.templateId)
  (processPdfJob p s.templates.table settings job).toOption =
    (renderFromTemplate p s.cache ⟨current, job.payload, settings, settings.language⟩).1.toOption

/-- The type has an active template that renders the payload, or the built-in template fails as well. -/
def Renders (s : PdfState Compiled) (settings : PdfSettings) (job : PdfJobData Data) : Prop :=
  match getActiveByType s.templates.table (resolveTemplateTypeKey job.templateId) with
  | none => ¬ (buildFallbackHtml p job.payload settings.language "general").isOk
  | some template =>
    (p.apply (p.compile template.content) job.payload).isOk ∨
      ¬ (buildFallbackHtml p job.payload settings.language
        (if template.templateTypeKey = "" then "general" else template.templateTypeKey)).isOk

/-- A template that has been stored is rendered with its own content. -/
def RendersOwn (s : PdfState Compiled) : Prop :=
  ∀ template, template.stored ∈ s.templates.history → ∀ data,
    (compileTemplate p s.cache template data).1 = p.apply (p.compile template.content) data

/-! ## The cache -/

variable {p} {s t : PdfState Compiled} {cache : TemplateCache Compiled} {key : List Char} {value : Compiled}

theorem cacheKey_inj {id id' : String} {version version' : ℤ} :
    cacheKey id version = cacheKey id' version' ↔ id = id' ∧ version = version' := by
  have hcolon : ∀ n : ℤ, ':' ∉ intText n := notMem_intText (by decide) (by decide)
  unfold cacheKey
  rw [cut_at_last (hcolon version) (hcolon version'), String.toList_inj]
  exact and_congr_right fun _ => ⟨intText_inj, congrArg intText⟩

/-- What is found has been there. -/
theorem mem_of_lookup (h : cache.lookup key = some value) : (key, value) ∈ cache := by
  obtain ⟨before, after, rfl, -⟩ := List.lookup_eq_some_iff.1 h
  exact List.mem_append_right before List.mem_cons_self

/-- A `get` adds nothing. -/
theorem mem_of_mem_cacheGet {e : List Char × Compiled} (he : e ∈ (cacheGet key cache).2) : e ∈ cache := by
  unfold cacheGet at he
  cases hlookup : cache.lookup key with
  | none =>
    rw [hlookup] at he
    exact he
  | some value =>
    rw [hlookup] at he
    rcases List.mem_append.1 he with hold | hnew
    · exact (List.mem_filter.1 hold).1
    · rw [List.mem_singleton.1 hnew]
      exact mem_of_lookup hlookup

/-- A `set` adds its entry. -/
theorem mem_of_mem_cacheSet {e : List Char × Compiled} (he : e ∈ cacheSet key value cache) :
    e ∈ cache ∨ e = (key, value) := by
  unfold cacheSet at he
  split_ifs at he
  · rcases List.mem_append.1 he with hold | hnew
    · exact .inl (List.mem_filter.1 hold).1
    · exact .inr (List.mem_singleton.1 hnew)
  · rcases List.mem_append.1 he with hold | hnew
    · exact .inl (List.mem_of_mem_tail hold)
    · exact .inr (List.mem_singleton.1 hnew)
  · rcases List.mem_append.1 he with hold | hnew
    · exact .inl hold
    · exact .inr (List.mem_singleton.1 hnew)

/-- A template is rendered with what the cache has for it, or with its own content. -/
theorem compileTemplate_fst (template : Template) (data : Data) :
    (compileTemplate p cache template data).1 =
      p.apply ((cache.lookup (cacheKey template.id template.version)).getD (p.compile template.content)) data := by
  unfold compileTemplate cacheGet
  simp only
  cases cache.lookup (cacheKey template.id template.version) with
  | none => rfl
  | some value => rfl

/-- A rendering adds the template to the cache. -/
theorem mem_of_mem_compileTemplate {template : Template} {data : Data} {e : List Char × Compiled}
    (he : e ∈ (compileTemplate p cache template data).2) :
    e ∈ cache ∨ e = (cacheKey template.id template.version, p.compile template.content) := by
  have hget := @mem_of_mem_cacheGet _ cache (cacheKey template.id template.version)
  unfold compileTemplate at he
  simp only at he
  cases hfound : cacheGet (cacheKey template.id template.version) cache with
  | mk found after =>
    rw [hfound] at he hget
    cases found with
    | some compiled => exact .inl (hget he)
    | none => exact (mem_of_mem_cacheSet he).imp_left hget

theorem templateHtml_snd (options : RenderOptions Data) :
    (templateHtml p cache options).2 =
      options.template.elim cache fun template => (compileTemplate p cache template options.data).2 := by
  unfold templateHtml
  cases options.template with
  | none => rfl
  | some template =>
    simp only [Option.elim_some]
    cases compileTemplate p cache template options.data with
    | mk result after =>
      cases result with
      | error message => rfl
      | ok html => rfl

theorem renderFromTemplate_snd (options : RenderOptions Data) :
    (renderFromTemplate p cache options).2 = (templateHtml p cache options).2 := by
  unfold renderFromTemplate
  cases templateHtml p cache options with
  | mk result after =>
    cases result with
    | error message => rfl
    | ok html => rfl

/-- The first preview stays in the cache, whatever is previewed after it. -/
theorem compileTemplate_preview (content later : String) (data : Data) :
    (compileTemplate p (compileTemplate p [] (previewTemplate content) data).2 (previewTemplate later) data).1 =
      p.apply (p.compile content) data := by
  rw [compileTemplate_fst]
  have hcache : (compileTemplate p [] (previewTemplate content) data).2 =
      [(cacheKey "preview" 0, p.compile content)] := rfl
  have hfound : (compileTemplate p [] (previewTemplate content) data).2.lookup
      (cacheKey (previewTemplate later).id (previewTemplate later).version) = some (p.compile content) := by
    rw [hcache]
    exact List.lookup_cons_self
  rw [hfound, Option.getD_some]

/-! ## Versions that are stored once -/

/-- Every row has been stored, no version of a template has two contents, and no template is a preview. -/
structure StoredOnce (s : TemplateState) : Prop where
  versions : VersionsDistinct s.history
  stored : ∀ row ∈ s.table, row.stored ∈ s.history
  notPreview : ∀ r ∈ s.history, r.id ≠ "preview"

section Templates

variable {s t : TemplateState} {a : TemplateAction}

/-- A row is stored as it was before the clearing statement. -/
theorem StoredOnce.stored_clearRows (h : StoredOnce s) (cleared : List String) :
    ∀ row ∈ clearRows cleared s.table, row.stored ∈ s.history := by
  intro row hrow
  obtain ⟨r, hr, rfl⟩ := mem_clearRows.1 hrow
  rw [clearRow_stored]
  exact h.stored r hr

/-- A step that stores nothing. -/
theorem StoredOnce.same (h : StoredOnce s) (hhistory : t.history = s.history)
    (htable : ∀ row ∈ t.table, row.stored ∈ s.history) : StoredOnce t ∧ s.history ⊆ t.history := by
  refine ⟨⟨?_, ?_, ?_⟩, ?_⟩
  · rw [hhistory]
    exact h.versions
  · rw [hhistory]
    exact htable
  · rw [hhistory]
    exact h.notPreview
  · rw [hhistory]
    exact List.Subset.refl _

/-- A step that stores a version that was not stored with another content. -/
theorem StoredOnce.write (h : StoredOnce s) {new : Stored} (hhistory : t.history = s.history ++ [new])
    (hnew : ∀ r ∈ s.history, r.id = new.id → r.version = new.version → r.content = new.content)
    (hid : new.id ≠ "preview") (htable : ∀ row ∈ t.table, row.stored = new ∨ row.stored ∈ s.history) :
    StoredOnce t ∧ s.history ⊆ t.history := by
  refine ⟨⟨?_, fun row hrow => ?_, fun r hr => ?_⟩, ?_⟩
  · rw [hhistory]
    exact h.versions.concat hnew
  · rw [hhistory]
    rcases htable row hrow with heq | hold
    · exact List.mem_append_right _ (List.mem_singleton.2 heq)
    · exact List.mem_append_left _ hold
  · rw [hhistory] at hr
    rcases List.mem_append.1 hr with hold | hlast
    · exact h.notPreview r hold
    · rw [List.mem_singleton.1 hlast]
      exact hid
  · rw [hhistory]
    exact List.subset_append_left _ _

/-- A step whose update is fresh keeps the versions apart, and forgets nothing that was stored. -/
theorem StoredOnce.step (h : StoredOnce s) (hfresh : FreshVersion s a) (hpreview : takesPreviewId a = false)
    (hstep : templateStep s a = some t) : StoredOnce t ∧ s.history ⊆ t.history := by
  by_cases ha : ∃ i newId, a = .commit i newId
  · obtain ⟨i, newId, rfl⟩ := ha
    obtain ⟨call, hcall, hcommit⟩ := commit_cases hstep
    obtain ⟨-, hcases⟩ := commitWrite_cases hcommit
    have hcleared := h.stored_clearRows call.stage.cleared
    rcases hcases with ⟨htable, hhistory, -, -⟩ |
      ⟨data, status, isDefault, hwrite, hnew, -, htable, hhistory⟩ |
      ⟨existing, data, v, row, hwrite, hfind, -, htable, hhistory⟩ |
      ⟨existing, hwrite, hhistory, htable⟩
    · exact h.same hhistory (htable ▸ h.stored)
    · refine h.write hhistory (fun r hr hid _ => absurd (List.mem_map.2 ⟨r, hr, hid⟩) hnew) ?_ fun row hrow => ?_
      · exact of_decide_eq_false hpreview
      · rw [htable] at hrow
        rcases List.mem_append.1 hrow with hold | hlast
        · exact .inr (hcleared row hold)
        · exact .inl (by rw [List.mem_singleton.1 hlast])
    · -- The update finds a row of the table, cleared or not.
      obtain ⟨hmem, hid⟩ := of_findRow hfind
      obtain ⟨r, hr, rfl⟩ := mem_clearRows.1 hmem
      obtain ⟨hsameId, -, hsameContent⟩ := Stored.mk.inj (clearRow_stored call.stage.cleared r)
      have hfreshRow := hfresh call hcall
      rw [hwrite] at hfreshRow
      refine h.write hhistory (fun r' hr' hid' hversion => ?_) ?_ fun row' hrow' => ?_
      · have hcontent := hfreshRow r hr (hsameId.symm.trans hid) r' hr' (hid'.trans hsameId) hversion
        rw [hcontent, ← hsameContent]
        rfl
      · have hold := h.notPreview r.stored (h.stored r hr)
        exact fun heq => hold (hsameId.symm.trans heq)
      · rw [htable] at hrow'
        rcases mem_putRow hrow' with rfl | hold
        · exact .inl rfl
        · exact .inr (hcleared row' hold.1)
    · refine h.same hhistory fun row hrow => ?_
      rw [htable] at hrow
      exact h.stored row (List.mem_filter.1 hrow).1
  · obtain ⟨htable, hhistory, -⟩ := step_cases hstep fun i newId heq => ha ⟨i, newId, heq⟩
    exact h.same hhistory (htable ▸ h.stored)

end Templates

/-! ## Renderings along a run -/

/-- The entry is a version of a template that has been stored, or a preview. -/
def EntrySound (p : Platform Data Compiled) (history : List Stored) (e : List Char × Compiled) : Prop :=
  (∃ r ∈ history, e = (cacheKey r.id r.version, p.compile r.content)) ∨
    ∃ content, e = (cacheKey "preview" 0, p.compile content)

/-- The invariant: versions are stored once, and the cache has their contents. -/
structure Sound (p : Platform Data Compiled) (s : PdfState Compiled) : Prop where
  templates : StoredOnce s.templates
  cache : ∀ e ∈ s.cache, EntrySound p s.templates.history e

theorem EntrySound.mono {history later : List Stored} {e : List Char × Compiled} (h : EntrySound p history e)
    (hsub : history ⊆ later) : EntrySound p later e :=
  h.imp_left fun ⟨r, hr, heq⟩ => ⟨r, hsub hr, heq⟩

/-- A rendering of a known template keeps the cache sound. -/
theorem Sound.render (h : Sound p s) {options : RenderOptions Data} (hknown : Known s.templates options.template) :
    ∀ e ∈ (renderFromTemplate p s.cache options).2, EntrySound p s.templates.history e := by
  intro e he
  rw [renderFromTemplate_snd, templateHtml_snd] at he
  cases htemplate : options.template with
  | none =>
    rw [htemplate] at he
    exact h.cache e he
  | some template =>
    rw [htemplate] at he hknown
    rcases mem_of_mem_compileTemplate he with hold | rfl
    · exact h.cache e hold
    · rcases hknown with hstored | hpreview
      · exact .inl ⟨template.stored, hstored, rfl⟩
      · rw [hpreview]
        exact .inr ⟨template.content, rfl⟩

/-- A step whose update is fresh keeps the invariant. -/
theorem Sound.step (h : Sound p s) {a : PdfAction Data} (ha : VersionsKept s a) (hstep : pdfStep p s a = some t) :
    Sound p t := by
  cases a with
  | template a =>
    simp only [pdfStep] at hstep
    split_ifs at hstep with hpreview
    obtain ⟨templates, htemplates, rfl⟩ := Option.map_eq_some_iff.1 hstep
    obtain ⟨hstored, hsub⟩ := h.templates.step ha (Bool.eq_false_iff.2 hpreview) htemplates
    exact ⟨hstored, fun e he => (h.cache e he).mono hsub⟩
  | render options =>
    simp only [pdfStep] at hstep
    split_ifs at hstep with hknown
    obtain rfl := Option.some.inj hstep
    exact ⟨h.templates, h.render hknown⟩
  | dispose =>
    obtain rfl := Option.some.inj hstep
    exact ⟨h.templates, fun e he => absurd he List.not_mem_nil⟩

theorem sound_init (table : StoredTable) : Sound p (.init table) := by
  have hinv := inv_init table.toSoundTable
  refine ⟨⟨hinv.versions, hinv.stored, fun r hr => ?_⟩, fun e he => absurd he List.not_mem_nil⟩
  obtain ⟨row, hrow, rfl⟩ := List.mem_map.1 hr
  exact table.notPreview row hrow

/-- What is handed for a body that may fail. -/
def handedFor (p : Platform Data Compiled) (settings : PdfSettings) (html : Except String String) : Option Handed :=
  html.toOption.map fun body =>
    ⟨wrapWithStyles (p.sanitizeHtml body) settings settings.language, pdfOptions settings⟩

theorem renderFromTemplate_fst (template : Option Template) (data : Data) (settings : PdfSettings) :
    (renderFromTemplate p cache ⟨template, data, settings, settings.language⟩).1.toOption =
      handedFor p settings (templateHtml p cache ⟨template, data, settings, settings.language⟩).1 := by
  unfold renderFromTemplate
  cases templateHtml p cache ⟨template, data, settings, settings.language⟩ with
  | mk result after =>
    cases result with
    | error message => rfl
    | ok html => rfl

/-- With a cache that has the template's own content, the two agree when the template renders, or nothing does. -/
theorem agrees_iff (hown : RendersOwn p s) (hstored : ∀ row ∈ s.templates.table, row.stored ∈ s.templates.history)
    (settings : PdfSettings) (job : PdfJobData Data) : Agrees p s settings job ↔ Renders p s settings job := by
  unfold Agrees Renders
  simp only
  rw [renderFromTemplate_fst]
  unfold processPdfJob templateHtml
  cases hactive : getActiveByType s.templates.table (resolveTemplateTypeKey job.templateId) with
  | none =>
    simp only
    cases buildFallbackHtml p job.payload settings.language "general" with
    | error message => exact iff_of_true rfl Bool.false_ne_true
    | ok html => exact iff_of_false (fun heq => by cases heq) fun hnot => hnot rfl
  | some template =>
    have hmem : template ∈ s.templates.table := List.mem_of_find?_eq_some hactive
    have hrender := hown template (hstored template hmem) job.payload
    simp only
    cases hcompile : compileTemplate p s.cache template job.payload with
    | mk result after =>
      rw [hcompile] at hrender
      simp only at hrender
      rw [← hrender]
      cases result with
      | ok html => exact iff_of_true rfl (.inl rfl)
      | error message =>
        simp only
        cases buildFallbackHtml p job.payload settings.language
            (if template.templateTypeKey = "" then "general" else template.templateTypeKey) with
        | error message => exact iff_of_true rfl (.inr Bool.false_ne_true)
        | ok html =>
          refine iff_of_false (fun heq => by cases heq) ?_
          rintro (hok | hnot)
          · cases hok
          · exact hnot rfl

end AlsaqiBackend.Pdf.Rendering
