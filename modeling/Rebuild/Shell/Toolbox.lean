import Rebuild.Shell.Tool.Awk
import Rebuild.Shell.Tool.Calling
import Rebuild.Shell.Tool.Columns
import Rebuild.Shell.Tool.Comparing
import Rebuild.Shell.Tool.Copying
import Rebuild.Shell.Tool.Dump
import Rebuild.Shell.Tool.Files
import Rebuild.Shell.Tool.Grep
import Rebuild.Shell.Tool.Listing
import Rebuild.Shell.Tool.Numbers
import Rebuild.Shell.Tool.Sed
import Rebuild.Shell.Tool.Select
import Rebuild.Shell.Tool.Sort

/-!
# The toolbox

All tools by name.
-/

namespace Rebuild.Shell.Toolbox

/-- The tools by name. -/
def tools : List (String × Tool) :=
  [("[", Tool.testBracket), ("arch", Tool.arch), ("awk", Tool.awk), ("base32", Tool.base32),
    ("base64", Tool.base64), ("basename", Tool.basename), ("cat", Tool.cat), ("chmod", Tool.chmod),
    ("cksum", Tool.cksum), ("cmp", Tool.cmp), ("comm", Tool.comm), ("cp", Tool.cp),
    ("cut", Tool.cut), ("date", Tool.date), ("dd", Tool.dd), ("diff", Tool.diff),
    ("dirname", Tool.dirname), ("echo", Tool.echo), ("egrep", Tool.egrep), ("env", Tool.env),
    ("expand", Tool.expand), ("expr", Tool.expr), ("factor", Tool.factor),
    ("false", Tool.falseTool), ("fgrep", Tool.fgrep), ("find", Tool.find), ("fold", Tool.fold),
    ("grep", Tool.grep), ("groups", Tool.groups), ("head", Tool.head), ("id", Tool.id),
    ("install", Tool.install), ("join", Tool.join), ("kill", Tool.kill), ("link", Tool.link),
    ("ln", Tool.ln), ("ls", Tool.ls), ("mawk", Tool.mawk), ("md5sum", Tool.md5sum),
    ("mkdir", Tool.mkdir), ("mkfifo", Tool.mkfifo), ("mktemp", Tool.mktemp), ("mv", Tool.mv),
    ("nice", Tool.nice), ("nl", Tool.nl), ("nohup", Tool.nohup), ("nproc", Tool.nproc),
    ("od", Tool.od), ("paste", Tool.paste), ("printenv", Tool.printenv), ("printf", Tool.printf),
    ("pwd", Tool.pwd), ("readlink", Tool.readlink), ("realpath", Tool.realpath), ("rev", Tool.rev),
    ("rm", Tool.rm), ("rmdir", Tool.rmdir), ("sed", Tool.sed), ("seq", Tool.seq),
    ("setsid", Tool.setsid), ("sha1sum", Tool.sha1sum), ("sha224sum", Tool.sha224sum),
    ("sha256sum", Tool.sha256sum), ("sha384sum", Tool.sha384sum), ("sha512sum", Tool.sha512sum),
    ("sleep", Tool.sleep), ("sort", Tool.sort), ("split", Tool.split), ("stat", Tool.stat),
    ("sum", Tool.sum), ("sync", Tool.sync), ("tac", Tool.tac), ("tail", Tool.tail),
    ("tee", Tool.tee), ("test", Tool.test), ("timeout", Tool.timeout), ("touch", Tool.touch),
    ("tr", Tool.tr), ("true", Tool.trueTool), ("truncate", Tool.truncate), ("tty", Tool.tty),
    ("uname", Tool.uname), ("unexpand", Tool.unexpand), ("uniq", Tool.uniq),
    ("unlink", Tool.unlink), ("wc", Tool.wc), ("which", Tool.which), ("whoami", Tool.whoami),
    ("xargs", Tool.xargs), ("yes", Tool.yes)]

/-- The tool of a name. -/
def find? (name : String) : Option Tool :=
  tools.lookup name

end Rebuild.Shell.Toolbox
