import Addon.Unicode.Packing

/-!
# Tables of character properties

The tables of Unicode 14 as lists of numbers, which are packed together and unpacked when the first
of them is needed. A number is written in symbols of four bits. A symbol holds three bits of it, the
first ones first, and the highest bit of the symbol tells whether the number goes on in the next
one.
-/

namespace Addon.Unicode

/-- The tables in the order in which they are packed. -/
inductive Table where
  | combiningRanges
  | compositionPairs
  | upperRuns
  | lowerRuns
  | upperSpecials
  | casedRanges
  | caseIgnorableRanges
  | alphanumericRanges
  | printableRanges
  | identifierStartRanges
  | identifierPartRanges
  | decompositions

/-- The numbers in some symbols, of which the first goes on from `high`. -/
def numbersFrom (high : Nat) : List Nat → List Nat
  | [] => []
  | d :: ds =>
    if d < 8 then (8 * high + d) :: numbersFrom 0 ds else numbersFrom (8 * high + (d - 8)) ds

/-- So many tables, each with its length in front. -/
def cutTables : Nat → List Nat → List (List Nat)
  | more + 1, length :: numbers => numbers.take length :: cutTables more (numbers.drop length)
  | _, _ => []

/-- The packed tables. -/
def tableText : String := "
FU9Q:Wa092FwcJA|W+,tDIMBqc$k?*317|aUWVq>49o!z!7wg+v&mV@Ozz&[bWR*3XJK5<<@|8y_W49r_g,]xr[_zLLM6RPW?=^Q
eEexUiG1*&FHN7s.5WVo:MfJfMkPOvhVasXX*9EYbr4!42a[bJZNKGhO,O,KazbyLQ*nR>)@ZB,>Ra0g:%7:A[kgG&J>?KJj%bIW
vaO4n0eNyY3tX$2!$Hl$NTh^U@qPw3btUq0ZyDubktUe4D0J%M&eneoRu>*2tel&],R>4p_;H$|Jykf!&Du(XFQ4DJ))GgY3K$MV
FhzJ<ry~XBxY2bF5lMZ1VDL3XuBnA06(f=UEG|N:qjVE[gr:NNqd,Xzah(mi9i*g=Wu%CW:>hOl)RgMqzTU|Vgpka*q<T>]Nm2M5
,0]sLc?1*TEzz$vXA*%E5!o4@7r],e]|KJfRk<TB&=nV~Xf^~+U1eAI$@4NL72Q1O71Z>2@KH@&Ot20sYbV:I)0j53e42m8kRk)[
kGV9H7[_]iAmnYRduPa@?qB%yD!o!t*@Nw6b<B1yZ)?WxIF=E9@.sO%Xu^OWD4K<S8Tx|H_kLa,W~N&b)!_0TM*4]CpJdpn$=w|<
]B][H*AfyODzAV=!Y.V+T_Rr;u~Gi4!GIKtneBR^8AX&QH71g09pM(m|Vk77li6xkQe(3.P[B.7Nz20l;+jBMQ):ilZGN%|atdwO
YoLJ%K0:[a6!doRrYqqS3F)HVcG|Ofs@NPG|JZ_U>*t,siCee(!!?Vh[Zlz8o3FlBCRE<P.U^nyr.O.G$d:9L4]=_0(dF!0^BUU4
VaMs2r98<Sj7*MZYR?y+Pg@dD)?D~IL|4$G8?Nc?y]Wbnc@]3>)ZxjFuZW0uFBZ*@<C&mdnVV|__*l?9dUfVz8AT|W4eb,U_9Q;^
+h%ibk4?K;fI8_p%Iz4$5lTvc(5xhOv4tHGU.bqx~ZNVyH,uzAel]?=5f05aZGY%|>m2|R,EzlC=1~ijct_>~(Iq2>0OqC(z]cP2
cD!SLWqu5.~EwCz1koVenSRnxPc,KEfp,X;~3s;4t3MprbieZ^fqFM7B=+hYrm05a%;K&U~E;R_e5^ZkL,0UJZ_r?+K_pwo1im9c
EU2n<q>4LJVX+YHeY3XWOpNG~eqk1fd0:j!]SACgC(Wt^4+HIh*yQuUJ<5fN!axVnXGio_8;,<q;aM1dtu46e]T6Uc*N+A.^VD2W
E4NJ^%$L!d(QUjRv9%~f?H_PGLN7<p?B)vE[y>EJ>e88QU9S<[ZOC[$Ihs&Rf6Sa=%2^Ao;W9wxDQ7DO(l?[DxV$J~=Ocw^(jMv1
Xv@js|zqlu5bj+s>N*[7J_goYTi8mhQ.pp$aj|op|Hq[0=AP9B~7NF8ie>;l]H]K9+a&Qk,4LY8UaA$C>2e.J+:*?tK_[5O>6_(g
jv]U?&RP7=8GP5kJj)gy[O8rIHvOu$xqvjxPz_F<QZxu5>P$lh]6P2d3i,:hrrc$Gi=8xMT,W^)F1[f:_]a(GA<+7w~V<BT2nkuF
lH+RK^u5k~gJLwZks;KI.Mcp)OJ[d6eVX|aUxuHq<hr88v[!&2%0nAeCF|Co~:j*[8zPjuXlXO80nSLELS?4$er*&SNLy:W6!^Mg
[Q5IJ6qhGveFAa7?s@[BX3ZNK*MK|2hS0&2qS3h~)kW+lP%jDsSxr[leaWC@MWmljO]sJCqa2E@gHlM$RN2G?V0K?;F5f|iiwok>
qdwrEzBpeB_fDR!oQkfrUF6..rpgFPvzo3aCRl94z6HV?[,It&wDacNbFEnp@[v13h%.:::l&4h.=vE6fC!aE:9wxZ1$q7+4I~!2
sMy3dyG4gpH=JZa60=Mm>*WMkTUh)OKg,<B*OLSed2m.L].p9*7,LhFQ6BO$F)Z!k^hu7[IPd7x$a*o&P4EYU!tP|,!PVj>+fJ*p
d6|m<c]JeuqU=;O5Z6:~z(q*u)OehPeDTP5&1!Ho5=5:<4xZb!T2OZcMb0*^5bFUu,@5)S(F]g|Sl_2<FNDE^lA.dPj9WW)?!i_N
TxHdgd7,2&>G2XIRJeOoVihhy]aJ;g9Mz8q.wP3TIA@H,5vwPkouOQR(KttmK$XfPcBQtriEDf|2l,.zwH,|PKG4g6XpIjrZU1XI
RbT7MVBuP5<~a=oF[4ad;=FHj&?Zd!,k8abU~wkx~]Em,_i;>^V!aOVJ^y9E9n*Yq2Lp@,+DMNER^R?c=2SXA4=D.9lzgI;*pq8O
x0u*0jkhyD+0azZ5q8pJYi]X^!<)++AZ%tQ4cxEhgdk=Y>r&KZQPmiO?JbPHi@,(j)!zt1<M;%0Cgf301hj$L+M^LZow_F6Ruy;D
kQy>K0)^IR0>APLWJ[u>r3%1x+Rl6y|(^vcrg^r:h$B3sfL^7_ziPPxth?o:5;hPU]Cmu,tC)4+?_n3v3J*:CQ(7YC:H3;QEmHkL
Yl6heu1zI,3%dot+!FK1vGBx=Y.na+g^d8lFehrU7$ujDnV)kA*q._:4a==Ycri~:*DszO7,Eo,D;n[GA&?@7WQi5+yEN*TV.OPX
v@.TloVjPwS)3=<mrxPTDOY2q)xOu?JqOf+cnpCZpF,19w|;CL!F0C(3OavPnTN1g5kUL?@JEO=:!s&zIXy,%SFR5Qfn1[1%IDmn
G?1GIba<(^V3T$S)0o6LeRAe*M_;>WTg[fZqnWJF&%$7;X<vhHa3Ki7sjm8.HsXILJl?K<E~;$?;eIfIz04jr7;sG)t+U1b$Vp>=
6&*oI9%ET,^~A8LBofAZ[[^>+5SM%<jTMZC:e:tGM@!Yu7^)8Hrs]d6^R*@+9&v!ya[GR6]T%o$jMQw2GW*39?@y!Pg2hDEz%;Af
5~($E0~i5X9KOwc%mx@(YQ2SWcZXZ$S(<OHUDY*s%,8C]_~ot2>KwAreSdO76MHF6tyK8Z2dOcKU6*i9QPW)=|M>c.tBib]k)U?i
r&WVtI3M:j.C~:i@IdrGO1<PF]D[@Hf.bQ=2Lf2$4;l,]eG~t*8LWVr0pDlg[_AJ$)mVJb~X0s.(cH0^M8!,$vIOQk,K[zK&e!>+
g_FMfKlUUg7h>7zyMGS4xc!(CL4!$n:z>]NtKF|b=^l@rgD:CtW,Qe7Bn$=VFmbN2%<Uu5(Aw@A4g]J%W0:o?HXVj(%BJp*?m:RK
_c%OirF(lGXAEItbn<z)|NA2Ner5DMIlGFuD9T8>mIp|o0,mZgZ05j%!Dk+%@(Bv;3l(>8,x^%4!AiwxQIb,]oAM$VHw1NbB(8d$
aM9t*@l*8%0;Cux<XzhS^xq2_H2SMUJ=kf8gAO4vR15mo]t8$LcwrS|^gMpX6Q5Xkl.nnM&HxaI*]7z88xF+J>[~2wQtC4D]&mqm
fm^<YzBj*ty2kmLi+&H)GZ5d)Ga,Fnta(OV@]LJxN:+17cfaeB1W:MY~NW4OT29cXB+fSib)Uye0VcNR7n%]3|.l<=^sspE%ftJ$
:r)=Oq5vZ)eQSkZ:(A|r4uE0IHk])8:3s2M5ZmYbv4]K78N3hB=lps>Z!(8q3uLt3rEV~Jd)NBwS*NK)2k3~7&)h(9AxhN$xawXC
T,jjJ+<(|+mJb$hOt.S!)H6?f]1Tb5]E0eyY0KlVI^h^5qO02f()Qd$ZTS+95gOJ_()56.zklUU%i4;3*FS5o6s5?f2RXk!YU=[,
f,?LmgN[h~!owxqnl[YXqoAVv%9W)[VDyunz6Wd&thOFXkCs45g$C<U*=sU%$s.[=LDs_QftaqD275D3i,x3Dh;oSdoK6gb2K5]_
=GmjlnI6,ImX4X5<xuRjhIiymU_K|m@Tz0<*c%bbkN.1FKso]<<J^miRf0mR[A^E]M>RA0vd3u^1HZ(a1e3>Z=j$dpgqVH>,Z^>e
]m^Ubf%zg|SSSK@M@uR6zc~Q;Z6GZLyhq|NdLN2R279$8+qg.G![kBQ!VXU<Wn_K<Rz*F6z*rll1Ffui[ZutrrK*164YIznI(31(
$APK,Nsk>j|Y?q5&z(|_0T5z6]2;.xJs7en*Yvzxt)W5rAekL^,QRpHist9O=+c5y%^Xvd43jxxaxaL5C(d3j(3@8v1H4sn4kR*L
4)y;+KBZ2yZl%4!5]A*<qnQu8hwUm|qEvebzLQW8)4)XdL;SPIfE*P2mf]>R%:o:II*mCnrmq1Hnd7yjB2wN17HO63LP7q2$)?@z
y^s]E_etL),X_DLtKE6hg4bK,|[PdTR0?To~dDyV?mtLobwoL3N]XM=HWYyvhz3?s9oB&li>Lmy@$8MBo1uLU(T^s^@3wFSd^gRB
IuYZ.j~h.1I8L_i).YDlROD|n7Uot[ujHnMd*pia@unhd[vi_ltk!d.Gr!V<rk6TYgCp.?$bsPC5q!ISjtOE(F,X@4;PYd&GYy:U
j[cB+Dw(9tkV(8D$o0ime4x@jKCqy;=E|H.F<x.2_)uYj$D|tvdbH@Hnpa@~V9jOPNu$N_hUcJG=?:4JkG)KfUfNDXm.uw8g3xU&
>EevRuH84$_@sCn]OH@.!83~^=SPqJ[4|E(u2i$6zeoh?.K@>_(k|fwD!iDO7>EM$=j3hLb$u=6qJY*yCNlpr@Z(f4q*lCR;e~iQ
IP|iRjLMIr1N?A]g:p|8txl,PZr~c]d,BVST.[rQ56i9lZv^h](6!F@7@o2@h6[|S;aZ(up^lQ^JK0(j>@devnEVaQOdUdv8.5pz
Xxkc_Av~I?^>~RNFrvIANb+>f7Abe<FoI_UqrqrTq,SuYe$czqYa0u)u2lZb84MRF:PEs[EkELI2]Pf;FgA<g%6ABTUBC)@d>.8w
FsD:ri@;13.&sk&:p6Yv,Jb~%Ek4;LVk>rTd,Ag@W?gow*m0;i+44:nPRbt1gSij86$0&6%~BN*71JhDzc+Aip[M)0Cel%=bmG)F
B=1ape*foKpTM*[9UsqhPI>p]8*l5*rsyEFR)?Dci*+kF^I:HvZ]q@nnZ>)uEBF|OoVY+g)7U_U!?YMX=Xr&JCH,.H,O_m[vNSYf
jm*[tqV>40UIyo*wAJ1gEJ=x)6g8bsE!Y>G@CRgVe2,uj]C%WLV|XlZU61r()z@8vf8T&?o4PQgQ)uvj~KG|mNoN?H%FOk>K!zlA
OBlg2$G,yMFSh)R7eW<83GeJjCbkDe9yKETLRGfHh@7sbR%*$aJy)18o2&+3ob>ohEP.7OyT=H(jR?nPoH[y)y5FvR3W|KQQ[b!:
(9,M(d&7E]4QQJ)Y*dxw@A77U|YFz:|lccA?aHu4B_eDn2FHBCDRs:b^GbF>w=719tq5F^~zy%&%(?^7TR6I41%$Crj1aRASUD:F
5ruRh?_m@bG&W1MhuY]oq80mUd@>iWf?_t|X,^>A*7m=2EP+k3LXhnD>WWdHy.CUjia^s]VXH8y7cROhu:!hlRdsy|[EO;gGr+Y5
W$c9Kl&m]x?A6KLvqUdiL)?ZhXF+9aKxfcO2+yM+YqFYeT>&v%lkuGYdt331=^3tcIJ]lmK2c5CbIk)8=:H~Xa~G]zYcsQQcL9oc
Q_QN8iO8RKd4<K^)WqA90mf9RIvdo|&ZuRL=mAavAA8;ioE@~87x+0(2UNK;ewDs,bd7zlbZ?EDQm!&10%?M>Tcqxy(s5U;4o[(t
LNTBJ9onP6RvSff,jp:g+omNZZT._$G8(NW0Jp4||dO>C4n5S^1Rm+Q7O>pi4hLYk<BtqP+hkSoD~6CBZZk9!QEYy@MDPLVjjwtd
=%:nT%*P.q+KQ?&^vARc~<|d+^a.F]lgJRZ^<BB3xz)q@i$&OrN<6b_*Tm!<!Tqmro7ZfnDU@g<[a;:Jrh?]R4Y.EBo(F]cPS9d_
tfmvS7?DVt|r11aX3:z,PUsF4vlAfp7^QFw0u<3vB$Bk.URG9!W1oDO4PL_+uJ(;*Dtf~8ac,H3$br[m8m*tr@,QuzJ6VP6nYFaE
Ok1Vk*R1:!SfV1UN,vmn9+dSz]?WOF32%9A~g,:uKh![:$kMIMmRR<p0+XZ[_EIDKWV%bHNK)>Ek]Z7NDaz?CFkLL)@SmWhxhKWI
3Y8z8K(|r;dweDs:9^=9>7*|]v_bBMc|gZgP|gDLr*UvXy:Z+c6^UxU5=c~u(!?Ef>BGjVP3fU@JjlOL7=o!>jbhA@VStCz~L!x+
DfYBjHT=y1NOvaPpHy16fzUnQG.9[pWPmFSFA8ee?IP?Xg_z(oUyFAn:)w!B7_|3F@i&q>I^&y;ur%(*X!Qq,cbvcg9sAFDgv@|H
x,y<,GNZv?vNy2ZBo6|3fbga+RifgE%|<9)>%1ONnp(YAnN6U:F?>anj]i,a:y,.T)Fy]RmfAR|.s7zpYm]y~GGZA==I:^;jukW:
5a0vRUIruPczkOq7T]86M&^+8*T@o+p8C(b,rxgS3T:G1VR;+RwZ:Z><ZPsh5xxIsm*%C.*f%=CpSA0w6Vfj|WSeL)%wt<dXr6&~
:~Vs:@8Nb1wQ0d=Y99wA1UR_B^KH0h0qYuG;2gk299sPb0==[MLW;qQXWGw8J.[4sl!vwxYzv>ZHhGnA>i1))+(JB)O!kzuHg(j0
)=1Ti+;z<<7dXTx8(_|!>Vuu?!N>ciZFiVSY3q8L=kAv4ZEJO;^&>r4Ryg!<ZX+M_eipsjx[)C;~JI)EX9,m3+YU?Ir^PR5m.IJx
ruqH@o98~eX.T0&&YMup6K[:!bEfV6D2n2HTmjswfc97mxn;i[5f;3q=7l$bNVH@)rnjTP()RiOmSrXbuIVG5GSen,AuL0B?o33?
2JRWF$(onlZ@+;y.H;quKXE155KWV&1v4p!yspqyCl+$!C%va]Jbqy1O;xgVVn8sm3,<f!WlseSH_gDm;ZYuw6qgmx*z1BKL6aFI
)+U?nCwh)90C@xKLWi$MqMZ3FaQe$z!CVXtsjxIz!G]v3v<YfPtOeJzo^y(R=G;*Hx;Zzr0k]I~~v>p7Ia0>V(l76:!kj!d:$YDl
Ucv]k:%RAAI5144eqgl8StH&0nxMw+QZ_e4)w~,pmale]>Om(4V&@;d8p(UXFho~Jw|:z?)yUy[.B1E;*mlYhIM.jts0s4jJCApw
HRU@;7fYXfslzpu?o($sAL%N.M&k&BuWU[F+~nvg|(U5gpIC(im40FNt:zTZL0~e_USuKr7>Q=zOtaZr+@p$,xJF,h$E(i;DiR*^
0Fx<p3a1ebmxu*a~D4C!X.(u;~+[FCy^[4S%yOgV]xzNWsC2.YoP$<,x)alsx&,yya>b>GjEN6hB,5A^O6<sIrZ>LRWiPjE2Vvk2
by_wo7=uU+1r9<L00Pl]hP.ecaA;y6r$_fl&W2DesF7!6@[Ey<<8)(uQg2?8GO)5d?Z7CWc>=1<VUJXfER6[00EiarsJMU~QQnKH
>~i7+tC(Hxd3c:D!tx(UINWAGmN~RXyr)SmkIDrRd(iuX)[!7.sjg.Fw1H3y]ztxaN9~v35ck>$;dS.=vlmQ*0O@:6gavi?oD0IG
k!Pbpo4Zq=XHPq7hB%RDUrN+^em318G%:hALgUor~[BYgoF.;d$Zb97k&:?|a~qcLCgQ:iEYVM7;;*rJ)6s>fa^&wsDKeDP9PyWi
aWWJ<Q~zH@3R=mbkcPFUjv(FJPRwU(8?a?:w1C<&YB0MP_hmm[tmzo:YE2mC?zu+Z9A&,;B+_So@g;AK,5Bdk&8B_D&Ntqp4$BNZ
h9x3ha4JWKD:PQ7((2dO~[zi20;h!ry*Z!xc96OB(y|H+BUjd&Cu?qMt?hsw7~?_5$f2!<P<b~7;%9qUihH7O>[<mmJ88C.m?Y64
S]nCX2rcAzHZV2RwaT3?mvTS5hdhj2BKE(3+m04.[k6d+A4?EL8q$|[Nk*8fY~6^|90Xm8Ye:a5Xp@PG+e%f[ZLb9gM~JgND|;;$
RPWqJZjpQKFiO3,lO%sI<v(5Xi5o0z+6sy[|bI_xh.!~e*gbqEvSrex8|kf+S2>5m=~5G731v:!5KogUQh0muB>UQzpYJSwl;iBj
+x^~=>kINsxsOaDst,yg<Hv%aLnAM<UCTw~yFC.8~DUhJkjH<8HIZ]lfD.qygpmgffkLqizPak)JR=DxOJK1GqoRBG6u$S,Q<<;0
KOOT?7Pp4Bvl0|$?Bs66rB!Ar|6c3]seU0U?JljhAK]gQ^@]P!CF<g=cfz>%.KE?^F(mpnj3:<QB5q52OEFcR$M_jhzoR?.D$a(_
j!6wPI.5MEqV5Ms!.@kmIUZ@ye4Fny1F%5t_N~!:LTr^<9$_=QD8V~6[N5Q8@2s%qhA(.>XRj%&nfEV.M3>P%k%qTA;02V??zgd+
8(jr6Sfd7h2wDuOd|q,oqaVCF@4FRKLG[aZ>+w*HOij|9r))qN*VqQWy8pqOl6FBeG<@&+vDcUmy_6pG_@e1abjZ|pen+LhI,?I@
B6+oS1T^uaZO?c|(YP8|wL.ay*aXJCLrcMf%WRnjg*Svv:_,F?JD;FX6a([XGHlpCrDQVEUK>[S?s>A$o6)c+v=,!Zp.tMVj$.qY
edLSLX@Wlf5z=l%.@:?ECoI%K^J^tam$>zeDNR0j&9vObUJ?=cJr^0ch9&x+WphVNFF,)duwI!aJq04Av4]oKcp9.*7ms3;dOeXE
|M7tm@=j|nfNPs)_k]kK[_ukQ.q%Gno.$]k^n54CH1hfc)%ts%+Ng?~@c43Ey9gh0ZEr,$a55rF,]fn||svez6D!i^,Ch.atv[6I
4MZ%KAc4nEKQ3,JEn_E?.q8xqof|1.Nd;gyyWgT0?2vJAGVkGYP]OzwLBWX+^*E3JoYu^mLG.UtP^y.Iz21W[,tR$$|UvtmQUS57
WU8j=s(LsORtaAMFiT3SUk95|r&8@nL(2h<qKm)VW?E?G2C|I,[%bL2x(WMs?120)D6OC~vVb6*(n=<T|>oi;5%z~?^ax1%jHp]%
jkHS?,8fwZ!=K45=5n)TeDlYtLT&S1?&:^2g):.eAG;GsahGy+e=MX8Xy00!2LUbwHc=dO+HYPkZ!sG?|~qhSE:(;u8t<;WTh,Q>
=8qMsoMOk3VMhAR0kFEnS?*qau+IL1TK?tVcyyz(7*r5J1)Ykrwh6eA[P<AS3Xe8Yd2MS%p)nM_a_Hxg8]aQ<V&DHYG]m]x3BVE!
=6(A|>&M3j[KGN!Yrl6L+?:j@xG8PSb;4Y^]_>^ail3lpkW,[:v0pu!4HS1hNNFZ:cmYspaPfJV+[g+K~7PfUGx%p*FUp$?)Y~K:
>)OnT0$.f]M^!8^,q^Bo&H<hw&c!n6y~b?WT+_54)4&^zkC85L$OH$Wxy=YAt=DKs:KZW!q.fToyxaXaYvvvqOk[Y.9LdxPWr@,V
5U_4qZzr~=)D4mPJgROMC4e@,TUFosUcG9fbup:aMm1dAA9r8@Z6+egehW~V_<^Z6m:I1[*iWIc<=12Of6$xv*BT6165U=,MffVd
%0?Jo~+im@iWRUF()M*QmgedkSdGTQyQKGz;rX&H%6W*8[1[Z[CrOE=a^S8ds<Z:UDi..]Du$:;v2o6mG1p<Kh:w(!*?Qj%)1zev
v<,rYq!G_jJq9tx7bY]Km|tqT,drWAJsL?]A+!|CVaGy?bVf_GLI>[ggEG19U&AsvLR!Q2Ywz6>XO<b0n(ZMN+exR(:hJ1<b2A&L
E$ratP5C2*z3>A4ai&a;E)UhW43F&2$O%P;N9@n^FN1&?%TX01w$zH3(0<Xjg.oZif)+h]9vyK%>TNiQabPXM^nxqTAnknn0yA^i
C^O$wRkP5;yvN;TSa_4ZNM3Q8gT0)NFlOJ>gZ~2@?qL8Q6NG@?D_qd)o+,ST$%0M,XTAwmN*P,>>gex+v*|4O9=>i:nTz_^qBsft
W5D251BHxP;bD0i@>Y|l3_i4Cr8XEp_^wA<GBEW_0Lr?iN[=NCCW*W3Eb5GZa,<1ku@Mqg!GC3v*0vchJ~Inr!U26pCQA,%:QAb7
)emM]Uxgq@qo]37@Do6T4.%HGyL;QjH+LQ0u*7?ni0f|cifWswZA~RTO?H?+kdwBAcet<5?B7<zRjY]@?o0)y],!_jLP0XTfBT^|
,^ebgmtV&cDGOLkJYS8RqCgDrD56_Q[IN4BnT7+@ENWpiv5jBzu1!IMG$O?rk_D]|m)z_4?(iV3m6bZfs]jD3ulsiyzhU_[es1;l
X@ha[rwz]6|uL6>2>1GrMe?M.(FN,+BJJo~GO~TBy;*P:;1VCDUpM*DtEmcBh,Yy<F+R3HN<p$Rh?WRIC>jSsDkSAa:@:@T)AW,G
NaQrV*q%Ktg&K[nG)GqI&$C$98b?v?%GHX:<7QKv=6OT1P35fG+V]SjF<*c7+Zji~QdWaeWMpytm+Zf2eIS:pG5:n7!>.8m@$?ht
9oBe+^a&kbqSUhODUh4*~k_)1<eQWV[Run;x[R$.!Qa5zyJD[lKV<mCMFwZ_DZ;7P4ktFY!BKaEXfpTMQkE[t@W4pt~.uebqOL,(
BN?r2j!xC98+rZ>n<uQhe&4:qMuPkk^:EWbxEUHL9Ax1N2T>J]B9rT2V[g)?_^$1i|4Kb>P@kToh3k&>.AtZAp(c.J9])XASp>rI
^_FK5:>9PyIgtlP0OUH8z.R*h(PvN2=_+hh35m5RQNbZ.j)N<1ZOV_9<!JLbjEQo&~<N%emCfCkAGKZxP;YNBx0]tMvSuT8r4&+5
RC@]xAWZJEULCovS19aA[@@*j3ojT!t4l9^@.VFowV[TT*pNXFo=Bh(R?C4;iXRYK.E)m4o]Kg!bZRfE^?mpSZ;LusQnhnH8L%s&
.3GCXCgt6+)cM;GGjqKp|.4D:nzE>m%zij?0!XbB_No0.Qq^1~5~rX7ptPpGkDKJE$>+wsO(;%]skw_*Pf|$S>YyxpFn^D4ZVpxA
PA_8NYeHMWy=9Dj^mB@pU,s~cZ)3us?D|E,b<b&;(044vbwttW.*7ZO4$IHMi1M:gz15xmNBr!lBR.Aili)gqz&@I,Fnc@0FsPU6
qFvF!1AZYPLPS_K|*[42,^0d8_Rkk8;2qSq[oUJR19Uoo8]Vzlpdm4K4E7Z)7d(goxC(83GdJ&o2kN[vToUKRsDG6OD8(.M|kUze
=lBdMzRR4[>PkeK%)[QHZZc[gbSjtvH,5QNCg3?W^f<n77VAY6B)6BFo_:o$FiLnviLsBIhD+@yR;CBH8<KxMJRr7usBex+dVhO;
$V(P2IB]jRpv!6FY*8ZWuCXdw?W~>5&;~jNqHV+YCJ$S!r&2X)pTP(!<h]Cn42=aF;9&|O;;+Py._]JTomou,g|kLtGr6Kec6Ht<
~h+swVqF<A_tW7m:m+)p:(lV|xxoMPgio*)c~$G^xG@.bqoEOCz]8hkX.KMntkapQ(gWn0ONJaA@9jlI,bcf^!(LL11XSY>=jXxL
)$QM5GqKJEeRx@4aVhO6^=A,@=tBPY@|nmty)vTnzxt4f$:6.Ou<%nUmBw4WF&%Dw+ASmoQ%,0&6q>Gc&rC81)0a0ih5L6k.q>Fn
PpGF]B~o?(9gufNZy$rRu_XSDfZpkchK_GL4ZzYCUGV|SE|sWkc?zuV.9d!<LrL2,t2AJuS6h]])wv|8SWl9!B[D,YV1ynzmeTCW
|N.~cWN>>4kMWl]f;WiG=dbRH^qpxs1:5ocIFQvj~[_>ognrt;CaBKbz[S,Ctv|~(F9f(*wjD[|8x6U%LxI&A9.E|DIUT;Jzo^Mj
GKzIO<:AD||3?qcJRMApUl2ee4*_@d$sr,fa*PUDRzU8a%o^<(l~05QZ22+:$TrRJ;bUWulv+A85[eHu4U4BWJfC=0qwbpKUMXv5
rDYH(=PdEDCLIXcB~q[<Ne_,$m$KN>PvX[6X4NwZ1c88u&8])0xY$pV^Xk8F.1IkH+v^.j.~|^qY.~7>8^%?Vhe38bL|o|1pMkL5
FBU]m|hcX~rt+bdv|R|>r!$53Ba:5N&lOKZ~9$Tj1Y**j2RXK1qn.&xlD4]af:FO;%<7$@%WO3)DXoFN5t^VBSqrT[48y3kp;S%h
(CrAbUUd[bGN$5!2p&Xv@JIL?24>CP?u*YO^[bmYAsy%*O.jIONT]Qo(<0b8HfVUWNEiZk+oS<s$8lc8k;r:;mf&0K+)x2BKLzsR
|WR)o_X2$U>dsPXM]5!1>d[u4PlOyQk$<t~@FEm=?hhf.5)@2I>vp>p3GcRM*wOuKz13;3?e_F*o*nB%b^[$yL6aP%[Asag%vA_W
<Pewg)xGI5q7DpE[0Ci$o@WblTs88;zG)R~]55(p@pr<wN6^ZhNY=nG4<[!5n^?Wv9U*]eei6lU;|5OG0SHUj|+sA@tYBSigLGQi
qz+FU=N)>*E0ixZd:L>GK@]UmJDcgzK)x1GG5<esuFtF!9?$jJJG(s@rmtcH)Rtu>m+qb,a6H2]ZtK)dmSM^5D9(4u^q5.T+RZf)
5M+V[cY^PSI9&]F,tHX@x]TDS9Bs~<3f!z~hD0|Op@Vo];mM,CE:,S+F!F%e;,4g5KFUX_v;|f*QI=PLAjIMFXGK&@L@Xp&lub[)
I3AMBcE@fJRHb]|n::>37D~7VSHp)Z%GDw0dBw5V&Ld8;[h$rjK=TL*.B%2pS)v<3s(L5+dI4M!rFYh7pNnO0<[Q[r)TJti^arDD
lL~~H7A0ScN4wnp3)(1mzrH|L~m$t%D03P9$4Va)Xco:!,:O@ZDxgN]an3jUzZ%~q8Byk2b$HRlS5W0~n!l3T@]VzSmTqY~X*qBR
IDP7q&i=DC9be<8O+0H?nD3BSA!GDMdll1k7H7SfQNZv_w*s!H*(=GGAa10a+f%|&!oki+v,7xYH@>1,YSn=U<$~mnfPqzk,B]HY
^kQ?GHw.w9Fs?=xENnQsz:G,2wmIah:HtK=wmN(kC_=t2?L,t;_(!D,QnBjz)2E95zlptKUV&aJD|i>*mQE~8s|0|F&0%XapouZu
AVV9+pWis!(sw^OV^X6ThGZAs;j6(P%]sgM,MYsZ17(T$_M<YRhc31mI$F1LpbLi+2ZVD[X8JcyTNB?hYo7V)=A87sR0.XZ_hD!A
0S4hWq%r*7y2D(70>.c@N.nN4t**O>~GZ|P|BDtU?GntjU_sPQM$tcV;5bT>u.ZF?qOin+sab@jB4Qx:6D&0WLbha%:xnfVMbXr$
0hC*.=RJEQ$Q[bQmR+K7j5!u[Lta0:IMs1n2WT_tP62T^lZH8C[c>R&@vigy04]B:]Y19h+(Z,:qeEulP3gWLhFWowo5tnO>TLvq
M>LCQm6&MA,*?xRN|H&L2Z5Q*t>o9bG6Ch!S(MLxgOcXipqI_R824BT=ya0.]HLKy44U*Fn0iqD%7c^)fc6jCbH(ewT8VCm9.$71
0eA628^!)pFO+(<ymrz|uVyCH!~ml_x7z~FyT|DnEbyKNy2mj?%hkd!3y~OaLO.bl,4~yC@Sh1aWAC5|9&(x3P45I2=gVvV.QpNi
jUQW*vH;NF3*ygoUW<w:Ps=6FnIF2zwUkT;H_iDYc~d(V(aPuDosYQ&o*&u5WtzpO+p?iHUE=|L9@A|dkBz]!~DG]c|W^IpA*0x%
Bka?*oy;h>5C,$E[8Ka%ILmP^$14ZQ.50~P%uVJIMD9pDbzeRT;8NCj(Wv)qG.EcMm@<q>yZ@JyZ+@lSaAzA^1Hp][.r?%Kq4pS(
s3REW2>Y;1]Cm%>Q7(zy$|snhX3IK4E^f]=]40ZdNg00$Kb8R7ob4K~J*g:$wxY)W?sm.[]xOQ+_ahNKNjxsNPQZBYPiomFlHh3J
aIoI;zlC,kw;S8?yb>Ds8&ctX=i9%E>P,:@a%g]9:kq)$BC[V$<QS%1*q~B>ijuZ[S>349:MS%h0%ea*>5WqbwSd9;~k.]~Rv$u?
AGlmuO*&S_%&>>Ar6>8I,Oayy&t<PNkPo$eLy*G]L&vfF0Z6V]l(D]Yj3:+6qA*Tx[&nhE$jRMt>Oh]RAcjeZda+6@]V&u|A:Qu6
hCH?U=?+yURmg~,SfVZD9T%.HF97HRfOFGEZhH5Pj<voHvOOef>quwwiQApV9ZF0Uh9ry5y7,&&d];?i2(<3WBz&H6TqnqAE~VHn
RY!P$e+vN[Sf|d&eJOB(GyG*JI+ViijNs$4;l3MQP3Ex(oT*9>geLQy:9N@N,C^USd]X9uG]Z^Y&KV0=FUOfdZ%A[e?qjNq7K(9z
jjFMSc(htuUr%~@a=9Ma3JUwinLclejkp6~v8Dnb:0~[1oS?%j:>Vi8led29EtL3BTH;nS@EC1@dAkI&_S$1wHY3SA+Ch[:Ic.<Q
Lj=ax7x,btzH+U1rl%lB_6npKDipK+r3$a&X@1W1kPF[UW?QLnt*X=vvHC26JZ~HsNJG2.g2;itOy!zRN@|9H__~VH*g[jqD5Y+e
BrNIZTAd9,flX;d?Y,W?XUPJmM*<jKyQuuFHe|[):%8!p7!F<90M58>Pne*cn?uE^:!J3)FAdARE.zSO]Jm]7vX*WkH<~?TfTq7O
,^M=!1&;HamzbjqqDRPV>$qoQM_fS5KbrNQuapi.b5hqd[(kpy[W$6OEBc]K?UkU<=rH:TsK%ET5;s9|P%=q^A+)es3M7xy5|gkE
t+nwBbfvvbMH<9=S7hS(HSu$HQ|Hl?s6UKTDpJZl>_RPxsyN68ZM;>sIjjyf1Q^f9IA&d7CYJ;Kt.rF>lBY=k>MI2<ZCkUm;fx8L
l(AYf!])?9,&>Q6G7SDHf$F3Cl:<>+kcP35IbJYY>DhOzuiuF%X~?*k2KJXXy^jeo.nq]J6oBE]<AlC[np<CY+g+[!FB]^lfh]h]
?bO%7V(ABCoZidMG5UbvqS;<za]C[(_OYU3L79o+H:5*Puz1g?H;&:,ioGF5;58YwtQX<s)l|.K+pkSkEe?m7:h58eJ$J97$B&f$
$ZDloG<92q*6j[76G1Y=7<?KSRdHGe<%R%i4q,N:v4k96vBBJlL]^&SJX(M_]n_|xW4(?v)P$(SD51*.@K^lf4|Dssi22gMmyWg!
0Xxvv4_zC]c[v%yBlu|o[DJxYB7H+i]|GA?9AhWHD.C3hF1lX5MLEbga*=LdSQI)=no|G~a8_XxT5IZq]QJ%?tRp*U@Dxu|hXE!e
5H6A[k8|L_qK.A4,%3&wp41G|S=tg]C4;dZBmrKDC8J+Si=nsLc|wFCg;)PHBA1nJt1+sG+|@co_,tPa)tJb_xdfkg,onVt1*ZXq
L=k@Pjqk^jz.J?lf7<dEJ[uYrP48DkI1$JR0D7h)p(2Ngm=^O_2]%+G.jupoPkM,ktd!hh&v)C^Jj6>)mpfT?%OB3(V5u:q]J0(S
v<uCw@iIbz4t27Fymncnr;8v^;EA1ld>Ov7rZ@|(Q=j^$Cz|2$,4[.EbY4Yngh)j2U,H%UIvzif?EZKVdX4=0x<hv.+6KsS.&k|>
jjH0r1D)R^>;dPy;Fc[wZ5SbZ?)XIM|M.8tIe42uvKzVPjT%j1NMV^rKooSw,rbpWkAtx]SJ+BH_IR)ufeA?A@C4e*UUP,Vq^H3E
0d0<XCAOcj=zV3>H<vG*+[NuX)AO%0^ed.L~]@qM+gEW3oRgnxM;=:B6RtYs;al|o8e8ZNfRB!<hK1HHXHvjS7]X*z[g+:2VNn>H
$:c[VT?O2,Amh096+:_t0>cOw[n<a9z%4pJ(Nh@1$H7V.81^NNgh:aqBD_Wr!b!vw=.g+>[(KRiT(tCFZD<h0%6Sl,%*x[rhhUmy
j&sOqD!T.~Y+%o2FoBc~@<pQ.,@o)d3dg01ehV]!US:P&3zTH%IJXa7KQT^S8=OT]eQ^egXTd7r)^0l?G<>?xF31iL@lts&drrK8
IU&P81)P,?%O6nHG.aQ$PJpK.W1*K0R:f;!hc]dIdr:_&!XM&ba^fVV]S:@>)64;a6x*$r2MHi3d?wulHp!Vk5z$Boj.Q%hDt=wG
N608oB2zv3AbT!yOLVWF!3|?gQUb],:,W=:@dfK*P.gzt7+r~3b(+9[H,HKh?b<ch$:$x&l+fLL^D|A:QkO[:_FR~@rUEtP4bcj4
Upmir7d3fBi(S>L&K_m6km!95nXGaj](?ye8rZY9(jvD~5Cm~Eu@Q|BQ9),HcDP<y+tf$xD<v]40BNBFp(;)aD|pHom^|Arj$>,A
$R_4&%EReCBa;F0d5fG$&N4&m)Pz$wCQ(*]r&_ssUC|dndXr1LBP)HjadU$bws@]0bPOu?r4YmUw6b[Bmu_^fZUEB|u0)iL%$urP
I!eeo%]e[*z]NI%Vn>X2|TmHyunI.x94l8S^>T+_7W%zASWQ1Tt@SQ!;1^N)1vsp=xUvB0lQG=KQAzx_ci8FgqiF0TP;Al:AHOuY
dR!WXq9kZE2^_BEl<xQib|_~(]UXkfv*c+c:n_~TkoL*.2TNN.jl)z;&|Q,$SLXP?^zNq4vyblhr*b]Q~uyy2ExZ:0kF0YlIWdMX
e:>1^(+Coii;5,A$VQ*fx^%%_obE98ZtmNr?*qUxhz.q!VmLr.o%&$4>@=6qo*=~H*m[H.Poq*F|b8r?m0=P!tIl]Zh>T@7+O:,x
:[Y_fkE0$kBiG+nb><;M4%flR;EeOf|)?dj+$2s>fe3rLBX0<U]aVs(sHfH]_?~KmnEax!GNFGfGc"

/-- The numbers of all tables. A line is one number. -/
def tables : Thunk (Array (List Nat)) := Thunk.mk fun _ =>
  let packing : Packing := ⟨4, fun n => 8 ≤ n, fun n => n < 8⟩
  (cutTables 12 (numbersFrom 0 (packing.unpack 37997 tableText))).toArray

/-- The numbers of a table. -/
def Table.numbers (t : Table) : List Nat :=
  tables.get.getD t.ctorIdx []

end Addon.Unicode
