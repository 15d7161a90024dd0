import Hygrometer.Config.Basic

/-!
# The page

A static page with one panel: a title, a caption and a button that does nothing. Its texts come from
the configuration and are written so that they cannot change its markup.

The page is put together from fixed pieces of markup, with a text between each two of them. A text
stands between tags and nowhere else: not inside of a tag, where it would need other quotes, and not
inside of the style sheet, where no entity is read. So one way of writing it is right for all of its
places (`escape`), the one that puts an entity for each of the five characters that markup gives a
meaning.

The button has no script behind it and sends nothing, and the page asks for no other file. So all
that a browser shows of it is in this one response, and it is the same response until the
configuration changes.

## Main definitions

* `escape` – a text inside markup.
* `render` – the whole page.
-/

namespace Hygrometer.Page

/-- A character of a text, with an entity for each character that markup gives a meaning. -/
def escapeChar (c : Char) : List Char :=
  if c = '&' then "&amp;".toList
  else if c = '<' then "&lt;".toList
  else if c = '>' then "&gt;".toList
  else if c = '"' then "&quot;".toList
  else if c = '\'' then "&#39;".toList
  else [c]

/-- A text inside markup. -/
def escape (s : String) : String := .ofList (s.toList.flatMap escapeChar)

/-- The style of the panel. -/
def style : String :=
  "body \x7b margin: 0; min-height: 100vh; display: flex; align-items: center; " ++
    "justify-content: center; background: #0f172a; color: #f1f5f9; " ++
    "font-family: sans-serif; \x7d\n" ++
  ".panel \x7b border-radius: 1rem; background: #1e293b; padding: 2rem; " ++
    "box-shadow: 0 1px 3px rgba(0, 0, 0, 0.3); \x7d\n" ++
  "h1 \x7b font-size: 1.875rem; font-weight: 700; margin: 0; \x7d\n" ++
  "p \x7b margin-top: 0.5rem; color: #cbd5e1; \x7d\n" ++
  "button \x7b margin-top: 1.5rem; border: 0; border-radius: 0.75rem; background: #6366f1; " ++
    "color: #2563eb; padding: 0.5rem 1rem; font-weight: 500; \x7d\n" ++
  "button:hover \x7b background: #818cf8; \x7d\n"

/-- The markup before the title. -/
def beforeTitle : String :=
  "<!doctype html>\n<html lang=\"en\">\n<head>\n<meta charset=\"utf-8\">\n<title>"

/-- The markup between the title and the heading, which repeats it. -/
def beforeHeading : String :=
  "</title>\n<style>\n" ++ style ++ "</style>\n</head>\n<body>\n<div class=\"panel\">\n<h1>"

/-- The markup between the heading and the caption. -/
def beforeCaption : String := "</h1>\n<p>"

/-- The markup between the caption and the label of the button. -/
def beforeLabel : String := "</p>\n<button type=\"button\">"

/-- The markup after the label of the button. -/
def afterLabel : String := "</button>\n</div>\n</body>\n</html>\n"

/-- The whole page. -/
def render (t : PageTexts) : String :=
  beforeTitle ++ escape t.title ++ beforeHeading ++ escape t.title ++
    beforeCaption ++ escape t.caption ++ beforeLabel ++ escape t.buttonLabel ++ afterLabel

end Hygrometer.Page
